/-
# What the failover metrics count

`FailoverMetrics` of a `FailoverSigner`: the counters are kept under a lock of their
own and the flag under another, so a reader can come between a change of the flag
and the count of it.

`metrics_account` says what holds at every moment of every run.  Signatures are counted
when they are asked for, and no more errors are counted than signatures.  Failovers
and failbacks alternate but for two things: a failback that is set and not
counted yet, and `force_failback`, which counts one whether the flag was down or not.

Every part is a potential: what a section adds to the counters it takes from the
weight of its thread (`Potential.Falls.run`).
-/

import ProvableAi.Signer.Failback

namespace ProvableAi
namespace Failover

/-! ### Potentials -/

/-- What the counters say, and what a thread may still add to it. -/
structure Potential where
  shared : Shared → ℤ
  thread : Thread → ℤ

/-- The weight of the threads. -/
def State.weight (w : Thread → ℤ) (s : State) : ℤ := (s.threads.map w).sum

namespace Potential

def value (p : Potential) (s : State) : ℤ := p.shared s.shared + s.weight p.thread

/-- No section raises the potential, with the probe thread that it may start. -/
structure Falls (P : Pair) (max : ℕ) (p : Potential) : Prop where
  spawn : ∀ call, call ≠ .probe → p.thread ⟨call, call.start⟩ ≤ 0
  next : ∀ sh sh' call pc pc' o b, next P max sh call pc o = some (sh', pc', b) →
    p.shared sh' + p.thread ⟨call, pc'⟩ + (if b then 0 ⊔ p.thread ⟨.probe, Call.probe.start⟩ else 0) ≤
      p.shared sh + p.thread ⟨call, pc⟩

end Potential

section

variable {P : Pair} {max : ℕ} {s s' : State} {a : Action}

theorem weight_append (w : Thread → ℤ) (ts : List Thread) (t : Thread) : ((ts ++ [t]).map w).sum = (ts.map w).sum + w t := by
  simp

theorem weight_advance (w : Thread → ℤ) {i : ℕ} {t : Thread} (call : Call) (sh : Shared) (pc : Pc)
    (ht : s.threads[i]? = some t) : (s.advance i call sh pc).weight w + w t = s.weight w + w ⟨call, pc⟩ := by
  obtain ⟨hi, hti⟩ := List.getElem?_eq_some_iff.1 ht
  have hs : s.threads = s.threads.take i ++ t :: s.threads.drop (i + 1) := by
    rw [← hti, List.getElem_cons_drop, List.take_append_drop]
  rw [State.weight, State.weight, State.advance, List.set_eq_take_append_cons_drop, if_pos hi]
  conv_rhs => rw [hs]
  simp only [List.map_append, List.map_cons, List.sum_append, List.sum_cons]
  omega

theorem weight_startProbe (w : Thread → ℤ) (s : State) :
    s.startProbe.shared = s.shared ∧ s.startProbe.weight w ≤ s.weight w + 0 ⊔ w ⟨.probe, Call.probe.start⟩ := by
  rw [State.startProbe]
  split_ifs
  · exact ⟨rfl, by omega⟩
  · refine ⟨rfl, ?_⟩
    rw [State.weight, State.weight, weight_append]
    omega

namespace Potential

variable {p : Potential}

/-- **One step** does not raise a potential that falls. -/
theorem Falls.step (h : p.Falls P max) (hs : s.step P max a = some s') : p.value s' ≤ p.value s := by
  obtain ⟨call, rfl, hc, rfl⟩ | ⟨i, o, t, sh, pc, rfl, ht, ⟨hn, rfl⟩ | ⟨hn, rfl⟩⟩ := step_cases hs
  · have hw := h.spawn call hc
    rw [value, value, State.weight, State.weight, weight_append]
    show p.shared s.shared + _ ≤ _
    omega
  · have hstep : p.shared sh + p.thread ⟨t.call, pc⟩ + 0 ≤ p.shared s.shared + p.thread t := h.next _ _ _ _ _ _ _ hn
    have hw := weight_advance p.thread t.call sh pc ht
    show p.shared sh + _ ≤ _
    rw [value]
    omega
  · have hstep : p.shared sh + p.thread ⟨t.call, pc⟩ + 0 ⊔ p.thread ⟨.probe, Call.probe.start⟩ ≤
        p.shared s.shared + p.thread t := h.next _ _ _ _ _ _ _ hn
    have hw := weight_advance p.thread t.call sh pc ht
    obtain ⟨hshared, hstart⟩ := weight_startProbe p.thread (s.advance i t.call sh pc)
    rw [value, value, hshared]
    show p.shared sh + _ ≤ _
    omega

/-- **No run** raises it. -/
theorem Falls.run (h : p.Falls P max) {as : List Action} :
    ∀ {s : State}, s.run P max as = some s' → p.value s' ≤ p.value s := by
  induction as with
  | nil =>
    intro s hs
    rw [← Option.some.inj hs]
  | cons a as ih =>
    intro s hs
    obtain ⟨t, ht, hs⟩ := Option.bind_eq_some_iff.1 hs
    exact (ih hs).trans (h.step ht)

end Potential
end

/-! ### The counters -/

/-- A signature that was asked for: 32 bytes, and `record_sign` is done. -/
def Thread.counted (t : Thread) : Bool := t.call.hash.length = 32 && t.pc ≠ .recordSign

/-- An error of the primary may be counted for the thread. -/
def Thread.mayFailPrimary (t : Thread) : Bool := t.pc = .readHealthy || t.pc = .callPrimary || t.pc = .recordPrimaryError

/-- An error of the fallback may be counted for it. -/
def Thread.mayFailFallback (t : Thread) : Bool :=
  t.mayFailPrimary || t.pc = .handleFailure || t.pc = .callFallback || t.pc = .recordFallbackError

/-- A failover may be. -/
def Thread.mayFailOver (t : Thread) : Bool := t.pc = .handleFailure || t.pc = .failover

/-- The flag is up by a failback that is not counted yet. -/
def Thread.failingBack (t : Thread) : Bool := t.pc = .recordFailback

/-- A failback may be counted. -/
def Thread.mayFailBack (t : Thread) : Bool := t.failingBack || t.pc.inLoop || t.pc = .failback || t.pc = .startProbe

/-- One where the condition holds. -/
def one (b : Bool) : ℤ := if b then 1 else 0

/-- The counters against the threads. -/
def potentials : List Potential :=
  [⟨fun sh => sh.metrics.totalSigns, fun t => 0 - one t.counted⟩,
    ⟨fun sh => 0 - sh.metrics.totalSigns, fun t => one t.counted⟩,
    ⟨fun sh => sh.metrics.consecutiveFailures - sh.metrics.primaryErrors, fun _ => 0⟩,
    ⟨fun sh => sh.metrics.primaryErrors - sh.metrics.totalSigns, fun t => one t.mayFailPrimary⟩,
    ⟨fun sh => sh.metrics.fallbackErrors - sh.metrics.totalSigns, fun t => one t.mayFailFallback⟩,
    ⟨fun sh => sh.metrics.failoverCount - sh.metrics.primaryErrors,
      fun t => one t.mayFailOver - one (t.call = .forceFailover)⟩,
    ⟨fun sh => sh.metrics.failoverCount - sh.metrics.failbackCount - one (!sh.healthy), fun t => 0 - one t.failingBack⟩,
    ⟨fun sh => sh.metrics.failbackCount - sh.metrics.failoverCount,
      fun t => one t.mayFailBack - one (t.call = .forceFailback)⟩]

/-- A section that returns a signature leaves the thread with nothing to add. -/
theorem afterSign_weights (call : Call) (v : Bytes) : call.afterSign v ≠ .recordSign ∧
    ∀ c, Thread.mayFailPrimary ⟨c, call.afterSign v⟩ = false ∧ Thread.mayFailFallback ⟨c, call.afterSign v⟩ = false ∧
      Thread.mayFailOver ⟨c, call.afterSign v⟩ = false ∧ Thread.failingBack ⟨c, call.afterSign v⟩ = false ∧
      Thread.mayFailBack ⟨c, call.afterSign v⟩ = false := by
  cases call <;> exact ⟨by simp [Call.afterSign], fun _ => ⟨rfl, rfl, rfl, rfl, rfl⟩⟩

/-- A thread that is started brings nothing. -/
theorem start_weights {call : Call} (hc : call ≠ .probe) : ∀ p ∈ potentials, p.thread ⟨call, call.start⟩ ≤ 0 := by
  simp only [potentials, List.forall_mem_cons, List.not_mem_nil, false_implies, implies_true, and_true]
  cases call <;> simp [one, Call.hash, Call.start, Thread.counted, Thread.mayFailPrimary, Thread.mayFailFallback,
    Thread.mayFailOver, Thread.failingBack, Thread.mayFailBack, Pc.inLoop] at hc ⊢

/-- **One section.** -/
theorem section_weights {P : Pair} {max : ℕ} {sh sh' : Shared} {call : Call} {pc pc' : Pc} {o : Outcome} {b : Bool}
    (h : next P max sh call pc o = some (sh', pc', b)) : ∀ p ∈ potentials,
      p.shared sh' + p.thread ⟨call, pc'⟩ + (if b then 0 ⊔ p.thread ⟨.probe, Call.probe.start⟩ else 0) ≤
        p.shared sh + p.thread ⟨call, pc⟩ := by
  have hprobe : Call.probe.hash = [] := rfl
  have hafter := fun v => (afterSign_weights call v).1
  have hweights := fun v => (afterSign_weights call v).2 call
  simp only [potentials, List.forall_mem_cons, List.not_mem_nil, false_implies, implies_true, and_true]
  cases pc with
  | callPrimary | callFallback | getPublicKey | probeCall =>
    all_goals cases o <;> simp only [next, Option.some.injEq, Prod.mk.injEq] at h <;> obtain ⟨rfl, rfl, rfl⟩ := h <;>
      simp [one, Thread.counted, hafter, hweights] <;>
      simp [Thread.mayFailPrimary, Thread.mayFailFallback, Thread.mayFailOver, Thread.failingBack, Thread.mayFailBack,
        Pc.inLoop]
  | _ =>
    all_goals simp only [next, reduceCtorEq] at h <;> (try split_ifs at h) <;>
      simp only [Option.some.injEq, Prod.mk.injEq] at h <;> obtain ⟨rfl, rfl, rfl⟩ := h <;>
      simp [one, Thread.counted, Call.start, hprobe, hafter, hweights] <;>
      simp [Thread.mayFailPrimary, Thread.mayFailFallback, Thread.mayFailOver, Thread.failingBack, Thread.mayFailBack,
        Pc.inLoop, *] <;>
      omega

/-- **The counters and the threads keep step.** -/
theorem potentials_fall (P : Pair) (max : ℕ) : ∀ p ∈ potentials, p.Falls P max := fun p hp =>
  ⟨fun _ hc => start_weights hc p hp, fun _ _ _ _ _ _ _ h => section_weights h p hp⟩

theorem weight_one (s : State) (q : Thread → Bool) : s.weight (fun t => one (q t)) = s.threads.countP q := by
  rw [State.weight]
  induction s.threads with
  | nil => rfl
  | cons t ts ih =>
    rw [List.map_cons, List.sum_cons, ih]
    cases hq : q t <;> simp [one, hq, add_comm]

theorem weight_sub (s : State) (v w : Thread → ℤ) : s.weight (fun t => v t - w t) = s.weight v - s.weight w := by
  rw [State.weight, State.weight, State.weight]
  induction s.threads with
  | nil => rfl
  | cons t ts ih =>
    simp only [List.map_cons, List.sum_cons, ih]
    omega

theorem weight_zero (s : State) : s.weight (fun _ => 0) = 0 := by simp [State.weight]

/-- **The failover metrics add up** at every moment of every run.  The signatures are the
calls that asked for one; the errors of each signer are at most as many, with those that may still
come; a failover was an error of the primary or forced; a failover is followed by a failback
unless the flag is down or the failback is not counted yet, and a failback follows a failover unless it
was forced. -/
theorem metrics_account {P : Pair} {max : ℕ} {as : List Action} {s : State} (hs : State.init.run P max as = some s) :
    let m := s.shared.metrics
    m.totalSigns = s.threads.countP Thread.counted ∧
      m.consecutiveFailures ≤ m.primaryErrors ∧
      m.primaryErrors + s.threads.countP Thread.mayFailPrimary ≤ m.totalSigns ∧
      m.fallbackErrors + s.threads.countP Thread.mayFailFallback ≤ m.totalSigns ∧
      m.failoverCount + s.threads.countP Thread.mayFailOver ≤
        m.primaryErrors + s.threads.countP (fun t => t.call = .forceFailover) ∧
      m.failoverCount ≤ m.failbackCount + s.threads.countP Thread.failingBack + (if s.shared.healthy then 0 else 1) ∧
      m.failbackCount + s.threads.countP Thread.mayFailBack ≤
        m.failoverCount + s.threads.countP (fun t => t.call = .forceFailback) := by
  have hfall := fun p hp => (potentials_fall P max p hp).run hs
  simp only [potentials, List.forall_mem_cons, Potential.value, weight_sub, weight_one, weight_zero] at hfall
  obtain ⟨h₁, h₂, h₃, h₄, h₅, h₆, h₇, h₈, -⟩ := hfall
  simp only [State.init, List.countP_nil, Nat.cast_zero] at h₁ h₂ h₃ h₄ h₅ h₆ h₇ h₈
  refine ⟨by omega, by omega, by omega, by omega, by omega, ?_, by omega⟩
  have hinit : one (!true) = 0 := rfl
  cases hflag : s.shared.healthy
  · have hdown : one (!s.shared.healthy) = 1 := by rw [hflag]; rfl
    rw [if_neg Bool.false_ne_true]
    omega
  · have hup : one (!s.shared.healthy) = 0 := by rw [hflag]; rfl
    rw [if_pos rfl]
    omega

/-- At the run of a planned maintenance: one failover by hand, none of the primary's errors, and no
failback yet. -/
theorem metrics_account_maintenance : ∃ s, State.init.run samplePair 2 maintenanceRun = some s ∧
    s.shared.metrics.failoverCount = 1 ∧ s.shared.metrics.failoverCount ≤
      s.shared.metrics.failbackCount + s.threads.countP Thread.failingBack + (if s.shared.healthy then 0 else 1) := by
  obtain ⟨s, hs, hcount⟩ : ∃ s, State.init.run samplePair 2 maintenanceRun = some s ∧
      s.shared.metrics.failoverCount = 1 := ⟨_, rfl, rfl⟩
  exact ⟨s, hs, hcount, (metrics_account hs).2.2.2.2.2.1⟩

end Failover
end ProvableAi
