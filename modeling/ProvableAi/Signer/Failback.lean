/-
# Whether the failback is forgotten

The flag of a `FailoverSigner` that is down goes up again by the probe thread
only.  `_start_health_probe` starts one unless `_probe_thread.is_alive()`, and a
thread that has taken a `return` of `_health_probe_loop` is alive until it has
recorded the failback and ended.

`failback_remembered` is the exact reach of the mechanism.  In a run none of
whose steps calls `_start_health_probe` with the flag down while the old thread
is alive and out of its loop (`skips`), a signer whose flag is down is probed
again.  After one such step the calls in progress can return with no thread in
the loop (`exists_forgotten`): the step leaves the flag down, none of these
calls raises it (`settle`), and none starts a thread as long as the old one has
not ended.
-/

import ProvableAi.Signer.Failover

namespace ProvableAi
namespace Failover

/-! ### Threads in the loop -/

/-- A section of `sign_hash` or of `force_failover` comes next. -/
def Pc.inCall : Pc → Bool
  | .recordSign => true
  | .readHealthy => true
  | .callPrimary => true
  | .resetConsecutive _ => true
  | .recordPrimaryError => true
  | .handleFailure => true
  | .callFallback => true
  | .recordFallbackError => true
  | .failover => true
  | .startProbe => true
  | _ => false

/-- `_health_probe_loop` has taken no `return`. -/
def Pc.inLoop : Pc → Bool
  | .probeCheck => true
  | .probeCall => true
  | .probeSet => true
  | _ => false

/-- It has taken one, and the thread has not ended. -/
def Pc.outOfLoop : Pc → Bool
  | .recordFailback => true
  | .leaving => true
  | _ => false

/-- A probe thread that takes the flag up again. -/
def Thread.probing (t : Thread) : Bool := t.call = .probe && t.pc.inLoop

/-- No call of `sign_hash` or `force_failover` is in progress. -/
def State.quiescent (s : State) : Bool := s.threads.all fun t => !t.pc.inCall

/-- A primary that is marked unhealthy is probed again. -/
def State.remembered (s : State) : Bool := s.shared.healthy || !s.quiescent || s.threads.any Thread.probing

/-- The section calls `_start_health_probe` and the flag is down. -/
def Pc.restarts (max : ℕ) (sh : Shared) : Pc → Bool
  | .handleFailure => decide (max ≤ sh.metrics.consecutiveFailures) && sh.healthy
  | .startProbe => !sh.healthy
  | _ => false

/-- `_probe_thread` is alive and out of its loop. -/
def State.probeOut (s : State) : Bool :=
  match s.probe with
  | some k => (s.threads[k]?).any fun t => t.pc.outOfLoop
  | none => false

/-- The step leaves the start of a probe out for a thread that does not probe any more. -/
def skips (max : ℕ) (s : State) : Action → Bool
  | .spawn _ => false
  | .step i _ => (s.threads[i]?).any (fun t => t.pc.restarts max s.shared) && s.probeOut

/-- No step of the run does. -/
def startingRun (P : Pair) (max : ℕ) : State → List Action → Bool
  | _, [] => true
  | s, a :: as =>
    !skips max s a &&
      match s.step P max a with
      | some t => startingRun P max t as
      | none => true

/-! ### The probe threads of a state -/

/-- Where a thread of a call can be. -/
def Thread.proper (t : Thread) : Bool :=
  match t.call, t.pc with
  | .probe, .recordFailback => true
  | .probe, .leaving => true
  | .probe, .done => true
  | .probe, pc => pc.inLoop
  | _, .leaving => false
  | _, pc => !pc.inLoop

/-- `_probe_thread` is a probe thread, and the only one that is alive. -/
structure Owned (s : State) : Prop where
  proper : ∀ t ∈ s.threads, t.proper = true
  probe : ∀ k ∈ s.probe, ∃ t, s.threads[k]? = some t ∧ t.call = .probe
  alive : ∀ k t, s.threads[k]? = some t → t.call = .probe → t.pc ≠ .done → s.probe = some k

section

variable {P : Pair} {max : ℕ} {sh sh' : Shared} {call : Call} {pc pc' : Pc} {o : Outcome} {starts : Bool}

/-- A thread stays where a thread of its call can be … -/
theorem next_proper (h : next P max sh call pc o = some (sh', pc', starts))
    (ht : Thread.proper ⟨call, pc⟩ = true) : Thread.proper ⟨call, pc'⟩ = true := by
  cases pc <;> cases o <;> simp only [next, reduceCtorEq] at h <;> (try split_ifs at h) <;>
    simp only [Option.some.injEq, Prod.mk.injEq] at h <;> obtain ⟨-, rfl, -⟩ := h <;>
    cases call <;> simp_all [Thread.proper, Pc.inLoop, Call.afterSign]

/-- … and one that has ended takes no step. -/
theorem next_done : next P max sh call .done o = none := by cases o <;> rfl

/-- The two sections that call `_start_health_probe`. -/
theorem next_starts (h : next P max sh call pc o = some (sh', pc', true)) :
    (pc = .handleFailure ∧ pc' = .callFallback ∧ pc.restarts max sh = true ∧ sh'.healthy = false) ∨
      pc = .startProbe ∧ pc' = .done ∧ sh' = sh := by
  cases pc with
  | handleFailure =>
    rw [next] at h
    split_ifs at h with hh
    · simp only [Option.some.injEq, Prod.mk.injEq] at h
      obtain ⟨rfl, rfl, -⟩ := h
      exact .inl ⟨rfl, rfl, by simpa [Pc.restarts] using hh, rfl⟩
    · simp at h
  | startProbe =>
    simp only [next, Option.some.injEq, Prod.mk.injEq] at h
    exact .inr ⟨rfl, h.2.1.symm, h.1.symm⟩
  | _ => all_goals cases o <;> simp only [next, reduceCtorEq] at h <;> (try split_ifs at h) <;> simp at h

/-- Where the flag goes down without a start, `force_failover` is about to make it. -/
theorem next_falls (h : next P max sh call pc o = some (sh', pc', false)) (hup : sh.healthy = true)
    (hdown : sh'.healthy = false) : pc' = .startProbe := by
  cases pc <;> cases o <;> simp only [next, reduceCtorEq] at h <;> (try split_ifs at h) <;> simp_all <;>
    obtain ⟨rfl, rfl⟩ := h <;> simp_all

/-- A thread in the loop stays there while the flag is down. -/
theorem next_inLoop (h : next P max sh call pc o = some (sh', pc', starts)) (hpc : pc.inLoop = true)
    (hdown : sh.healthy = false) (hdown' : sh'.healthy = false) : pc'.inLoop = true := by
  cases pc <;> cases o <;> simp_all [next, Pc.inLoop] <;> obtain ⟨rfl, rfl, -⟩ := h <;> simp_all

end

/-! ### Steps -/

/-- The section of a thread has been taken. -/
def State.advance (s : State) (i : ℕ) (call : Call) (sh : Shared) (pc : Pc) : State :=
  { s with shared := sh, threads := s.threads.set i ⟨call, pc⟩ }

section

variable {P : Pair} {max : ℕ} {s s' : State} {a : Action}

/-- What a step does. -/
theorem step_cases (h : s.step P max a = some s') :
    (∃ call, a = .spawn call ∧ call ≠ .probe ∧ s' = { s with threads := s.threads ++ [⟨call, call.start⟩] }) ∨
      ∃ i o t sh pc, a = .step i o ∧ s.threads[i]? = some t ∧
        (next P max s.shared t.call t.pc o = some (sh, pc, false) ∧ s' = s.advance i t.call sh pc ∨
          next P max s.shared t.call t.pc o = some (sh, pc, true) ∧ s' = (s.advance i t.call sh pc).startProbe) := by
  cases a with
  | spawn call =>
    refine .inl ⟨call, rfl, ?_⟩
    cases call with
    | probe => cases h
    | _ => exact ⟨by simp, (Option.some.inj h).symm⟩
  | step i o =>
    simp only [State.step, Option.bind_eq_bind, Option.bind_eq_some_iff] at h
    obtain ⟨t, ht, ⟨sh, pc, starts⟩, hn, h⟩ := h
    refine .inr ⟨i, o, t, sh, pc, rfl, ht, ?_⟩
    cases starts with
    | false => exact .inl ⟨hn, (Option.some.inj h).symm⟩
    | true => exact .inr ⟨hn, (Option.some.inj h).symm⟩

theorem getElem?_advance {i k : ℕ} {call : Call} {sh : Shared} {pc : Pc} {u : Thread}
    (h : (s.advance i call sh pc).threads[k]? = some u) :
    k = i ∧ u = ⟨call, pc⟩ ∨ k ≠ i ∧ s.threads[k]? = some u := by
  rw [State.advance, List.getElem?_set] at h
  split_ifs at h with hik hlt
  · exact .inl ⟨hik.symm, (Option.some.inj h).symm⟩
  · exact .inr ⟨Ne.symm hik, h⟩

theorem getElem?_advance_ne {i k : ℕ} (call : Call) (sh : Shared) (pc : Pc) (hk : k ≠ i) :
    (s.advance i call sh pc).threads[k]? = s.threads[k]? := List.getElem?_set_ne (Ne.symm hk)

theorem getElem?_advance_self {i : ℕ} {t : Thread} (call : Call) (sh : Shared) (pc : Pc) (ht : s.threads[i]? = some t) :
    (s.advance i call sh pc).threads[i]? = some ⟨call, pc⟩ :=
  List.getElem?_set_self (List.getElem?_eq_some_iff.1 ht).1

namespace Owned

theorem init : Owned .init where
  proper _ h := by cases h
  probe _ h := by cases h
  alive _ _ h := by cases h

theorem spawn (h : Owned s) {call : Call} (hc : call ≠ .probe) :
    Owned { s with threads := s.threads ++ [⟨call, call.start⟩] } where
  proper t ht := by
    rcases List.mem_append.1 ht with ht | ht
    · exact h.proper t ht
    · rw [List.mem_singleton.1 ht]
      cases call <;> rfl
  probe k hk := by
    obtain ⟨t, ht, hp⟩ := h.probe k hk
    exact ⟨t, by rw [List.getElem?_append_left (List.getElem?_eq_some_iff.1 ht).1, ht], hp⟩
  alive k t ht hp hd := by
    rw [List.getElem?_append] at ht
    split_ifs at ht
    · exact h.alive k t ht hp hd
    · obtain rfl := List.mem_singleton.1 (List.mem_of_getElem? ht)
      exact absurd hp hc

theorem advance (h : Owned s) {i : ℕ} {t : Thread} {sh : Shared} {pc : Pc} {o : Outcome} {b : Bool}
    (ht : s.threads[i]? = some t) (hn : next P max s.shared t.call t.pc o = some (sh, pc, b)) :
    Owned (s.advance i t.call sh pc) where
  proper u hu := by
    obtain ⟨k, hk⟩ := List.mem_iff_getElem?.1 hu
    rcases getElem?_advance hk with ⟨-, rfl⟩ | ⟨-, hk⟩
    · exact next_proper hn (h.proper t (List.mem_of_getElem? ht))
    · exact h.proper u (List.mem_of_getElem? hk)
  probe k hk := by
    obtain ⟨u, hu, hp⟩ := h.probe k hk
    by_cases hki : k = i
    · subst hki
      obtain rfl := Option.some.inj (ht.symm.trans hu)
      exact ⟨_, getElem?_advance_self _ _ _ ht, hp⟩
    · exact ⟨u, (getElem?_advance_ne _ _ _ hki).trans hu, hp⟩
  alive k u hu hp hd := by
    rcases getElem?_advance hu with ⟨rfl, rfl⟩ | ⟨-, hu⟩
    · refine h.alive k t ht hp fun hdone => ?_
      rw [hdone, next_done] at hn
      cases hn
    · exact h.alive k u hu hp hd

theorem probeAlive (h : Owned s) {k : ℕ} {t : Thread} (ht : s.threads[k]? = some t) (hp : t.call = .probe)
    (hd : t.pc ≠ .done) : s.probeAlive = true := by
  simp [State.probeAlive, h.alive k t ht hp hd, ht, hd]

theorem startProbe (h : Owned s) : Owned s.startProbe := by
  rw [State.startProbe]
  split_ifs with halive
  · exact h
  · refine ⟨fun t ht => ?_, fun k hk => ?_, fun k t ht hp hd => ?_⟩
    · rcases List.mem_append.1 ht with ht | ht
      · exact h.proper t ht
      · rw [List.mem_singleton.1 ht]
        rfl
    · obtain rfl := Option.some.inj hk
      exact ⟨_, List.getElem?_concat_length, rfl⟩
    · rw [List.getElem?_append] at ht
      split_ifs at ht with hlt
      · exact absurd (h.probeAlive ht hp hd) halive
      · have hk := (List.getElem?_eq_some_iff.1 ht).1
        simp only [List.length_singleton] at hk
        exact congrArg some (by omega)

/-- **One step** keeps the only probe thread that is alive known. -/
theorem step (h : Owned s) (hs : s.step P max a = some s') : Owned s' := by
  obtain ⟨call, rfl, hc, rfl⟩ | ⟨i, o, t, sh, pc, rfl, ht, ⟨hn, rfl⟩ | ⟨hn, rfl⟩⟩ := step_cases hs
  · exact h.spawn hc
  · exact h.advance ht hn
  · exact (h.advance ht hn).startProbe

theorem run {as : List Action} (h : Owned s) (hs : s.run P max as = some s') : Owned s' := by
  induction as generalizing s with
  | nil => rw [← Option.some.inj hs]; exact h
  | cons a as ih =>
    obtain ⟨t, ht, hs⟩ := Option.bind_eq_some_iff.1 hs
    exact ih (h.step ht) hs

end Owned

/-! ### Runs without a start left out -/

/-- While the flag is down a thread is in the loop, or one is about to start it. -/
def Watched (s : State) : Prop :=
  s.shared.healthy = false → (∃ t ∈ s.threads, t.probing = true) ∨ ∃ t ∈ s.threads, t.pc = .startProbe

theorem probing_iff {t : Thread} : t.probing = true ↔ t.call = .probe ∧ t.pc.inLoop = true := by
  simp [Thread.probing]

/-- An alive probe thread is in its loop or out of it. -/
theorem Owned.inLoop_or_outOfLoop (h : Owned s) (hp : s.probeAlive = true) :
    (∃ t ∈ s.threads, t.probing = true) ∨ s.probeOut = true := by
  rw [State.probeAlive] at hp
  rw [State.probeOut]
  cases hk : s.probe with
  | none => simp [hk] at hp
  | some k =>
    obtain ⟨t, ht, hc⟩ := h.probe k hk
    have hpr := h.proper t (List.mem_of_getElem? ht)
    simp only [hk, ht, Option.any_some, decide_eq_true_eq] at hp ⊢
    obtain ⟨call, pc⟩ := t
    obtain rfl : call = .probe := hc
    cases pc <;> simp_all [Thread.proper, Pc.inLoop, Pc.outOfLoop]
    all_goals exact ⟨_, List.mem_of_getElem? ht, rfl⟩

/-- After a start that is not left out a thread is in the loop. -/
theorem Owned.startProbe_probing (h : Owned s) (hs : s.probeOut = false) :
    ∃ t ∈ s.startProbe.threads, t.probing = true := by
  rw [State.startProbe]
  split_ifs with halive
  · exact (h.inLoop_or_outOfLoop halive).resolve_right (by simp [hs])
  · exact ⟨_, List.mem_append_right _ (List.mem_singleton_self _), rfl⟩

@[simp] theorem startProbe_shared (s : State) : s.startProbe.shared = s.shared := by
  rw [State.startProbe]
  split_ifs <;> rfl

/-- The section of another thread does not move the probe thread. -/
theorem probeOut_advance {i : ℕ} {t : Thread} {sh : Shared} {pc : Pc} (ht : s.threads[i]? = some t)
    (hpc : t.pc.outOfLoop = false) (hpc' : pc.outOfLoop = false) :
    (s.advance i t.call sh pc).probeOut = s.probeOut := by
  rw [State.probeOut, State.probeOut, show (s.advance i t.call sh pc).probe = s.probe from rfl]
  cases s.probe with
  | none => rfl
  | some k =>
    simp only
    by_cases hki : k = i
    · subst hki
      rw [getElem?_advance_self _ _ _ ht, ht]
      simp [hpc, hpc']
    · rw [getElem?_advance_ne _ _ _ hki]

/-- **One step** that leaves no start out keeps a flag that is down watched. -/
theorem step_watched (ho : Owned s) (hw : Watched s) (hskip : skips max s a = false)
    (hs : s.step P max a = some s') : Watched s' := by
  obtain ⟨call, rfl, hc, rfl⟩ | ⟨i, o, t, sh, pc, rfl, ht, ⟨hn, rfl⟩ | ⟨hn, rfl⟩⟩ := step_cases hs
  · exact fun hdown => (hw hdown).imp (fun ⟨u, hu, h⟩ => ⟨u, List.mem_append_left _ hu, h⟩)
      fun ⟨u, hu, h⟩ => ⟨u, List.mem_append_left _ hu, h⟩
  · intro hdown
    have hmem := List.mem_of_getElem? (getElem?_advance_self t.call sh pc ht)
    cases hup : s.shared.healthy with
    | true => exact .inr ⟨_, hmem, next_falls hn hup hdown⟩
    | false =>
      -- the witness is another thread, or this one goes on in the loop
      rcases hw hup with ⟨u, hu, h⟩ | ⟨u, hu, h⟩
      · obtain ⟨k, hk⟩ := List.mem_iff_getElem?.1 hu
        by_cases hki : k = i
        · subst hki
          obtain rfl := Option.some.inj (ht.symm.trans hk)
          have hp := probing_iff.1 h
          exact .inl ⟨_, hmem, probing_iff.2 ⟨hp.1, next_inLoop hn hp.2 hup hdown⟩⟩
        · exact .inl ⟨u, List.mem_of_getElem? ((getElem?_advance_ne _ _ _ hki).trans hk), h⟩
      · obtain ⟨k, hk⟩ := List.mem_iff_getElem?.1 hu
        by_cases hki : k = i
        · subst hki
          obtain rfl := Option.some.inj (ht.symm.trans hk)
          rw [h] at hn
          simp [next] at hn
        · exact .inr ⟨u, List.mem_of_getElem? ((getElem?_advance_ne _ _ _ hki).trans hk), h⟩
  · intro hdown
    rw [startProbe_shared] at hdown
    simp only [skips, ht, Option.any_some, Bool.and_eq_false_iff] at hskip
    have hpcs : t.pc.outOfLoop = false ∧ pc.outOfLoop = false ∧ t.pc.restarts max s.shared = true := by
      rcases next_starts hn with ⟨hpc, rfl, hr, -⟩ | ⟨hpc, rfl, rfl⟩
      · exact ⟨by rw [hpc]; rfl, rfl, hr⟩
      · refine ⟨by rw [hpc]; rfl, rfl, ?_⟩
        rw [hpc]
        exact congrArg not hdown
    have hout : s.probeOut = false := hskip.resolve_left (by simp [hpcs.2.2])
    exact .inl ((ho.advance ht hn).startProbe_probing ((probeOut_advance ht hpcs.1 hpcs.2.1).trans hout))

/-- **A run** that leaves no start out keeps it watched. -/
theorem run_watched {as : List Action} (ho : Owned s) (hw : Watched s) (hk : startingRun P max s as = true)
    (hs : s.run P max as = some s') : Watched s' := by
  induction as generalizing s with
  | nil => rw [← Option.some.inj hs]; exact hw
  | cons a as ih =>
    obtain ⟨t, ht, hs⟩ := Option.bind_eq_some_iff.1 hs
    rw [startingRun, ht, Bool.and_eq_true, Bool.not_eq_true'] at hk
    exact ih (ho.step ht) (step_watched ho hw hk.1 ht) hk.2 hs

/-- A flag that is watched is remembered. -/
theorem Watched.remembered (hw : Watched s) : s.remembered = true := by
  rw [State.remembered]
  cases hdown : s.shared.healthy with
  | true => rfl
  | false =>
    rcases hw hdown with ⟨t, ht, h⟩ | ⟨t, ht, h⟩
    · simp [List.any_eq_true.2 ⟨t, ht, h⟩]
    · have hq : s.quiescent = false := by
        rw [State.quiescent, List.all_eq_false]
        exact ⟨t, ht, by rw [h]; simp [Pc.inCall]⟩
      simp [hq]

/-! ### After a start that is left out -/

/-- How many sections a call takes at most with the flag down, where nothing fails. -/
def Pc.rank : Pc → ℕ
  | .recordSign => 3
  | .readHealthy => 2
  | .callPrimary => 2
  | .resetConsecutive _ => 1
  | .recordPrimaryError => 3
  | .handleFailure => 2
  | .callFallback => 1
  | .recordFallbackError => 1
  | .failover => 1
  | .startProbe => 1
  | _ => 0

/-- The flag is down and the probe thread does not raise it any more. -/
structure Forgotten (s : State) : Prop where
  owned : Owned s
  down : s.shared.healthy = false
  out : s.probeOut = true

theorem probeAlive_of_probeOut (h : s.probeOut = true) : s.probeAlive = true := by
  rw [State.probeOut] at h
  rw [State.probeAlive]
  cases hk : s.probe with
  | none => simp [hk] at h
  | some k =>
    simp only [hk, Option.any_eq_true] at h ⊢
    obtain ⟨t, ht, hpc⟩ := h
    refine ⟨t, ht, decide_eq_true fun hd => ?_⟩
    simp [hd, Pc.outOfLoop] at hpc

/-- No start is made then. -/
theorem startProbe_of_probeOut (h : s.probeOut = true) : s.startProbe = s := by
  rw [State.startProbe, if_pos (probeAlive_of_probeOut h)]

theorem Forgotten.not_probing (h : Forgotten s) : ∀ t ∈ s.threads, t.probing = false := by
  intro t ht
  by_contra hp
  obtain ⟨hc, hl⟩ := probing_iff.1 (Bool.not_eq_false _ ▸ hp)
  obtain ⟨k, hk⟩ := List.mem_iff_getElem?.1 ht
  have hprobe := h.owned.alive k t hk hc (by rintro hd; simp [hd, Pc.inLoop] at hl)
  have hout := h.out
  simp only [State.probeOut, hprobe, hk, Option.any_some] at hout
  cases hpc : t.pc <;> simp_all [Pc.inLoop, Pc.outOfLoop]

/-- Once the calls in progress have returned the signer has forgotten its primary. -/
theorem Forgotten.not_remembered (h : Forgotten s) (hq : s.quiescent = true) : s.remembered = false := by
  simp only [State.remembered, h.down, hq, Bool.false_or, Bool.not_true]
  exact List.any_eq_false.2 fun t ht => by simp [h.not_probing t ht]

/-- With the flag down and nothing failing a call comes nearer to its end. -/
theorem next_rank {sh : Shared} {call : Call} {pc : Pc} (hpc : pc.inCall = true) (hdown : sh.healthy = false) :
    ∃ sh' pc' b, next P max sh call pc .ok = some (sh', pc', b) ∧ sh'.healthy = false ∧ pc'.rank < pc.rank ∧
      pc.outOfLoop = false ∧ pc'.outOfLoop = false := by
  cases pc with
  | recordSign =>
    by_cases hl : call.hash.length = 32
    · exact ⟨{ sh with metrics.totalSigns := sh.metrics.totalSigns + 1 }, .readHealthy, false,
        by rw [next, if_pos hl], hdown, by decide, rfl, rfl⟩
    · exact ⟨sh, .raised, false, by rw [next, if_neg hl], hdown, by decide, rfl, rfl⟩
  | readHealthy => exact ⟨sh, .callFallback, false, by simp [next, hdown], hdown, by decide, rfl, rfl⟩
  | callPrimary => exact ⟨_, _, _, rfl, hdown, by simp [Pc.rank], rfl, rfl⟩
  | resetConsecutive v =>
    refine ⟨_, _, _, rfl, hdown, ?_, rfl, ?_⟩ <;> cases call <;> simp [Call.afterSign, Pc.rank, Pc.outOfLoop]
  | recordPrimaryError => exact ⟨_, _, _, rfl, hdown, by decide, rfl, rfl⟩
  | handleFailure => exact ⟨sh, .callFallback, false, by simp [next, hdown], hdown, by decide, rfl, rfl⟩
  | callFallback =>
    refine ⟨_, _, _, rfl, hdown, ?_, rfl, ?_⟩ <;> cases call <;> simp [Call.afterSign, Pc.rank, Pc.outOfLoop]
  | recordFallbackError => exact ⟨_, _, _, rfl, hdown, by decide, rfl, rfl⟩
  | failover => exact ⟨sh, .done, false, by simp [next, hdown], hdown, by decide, rfl, rfl⟩
  | startProbe => exact ⟨_, _, _, rfl, hdown, by decide, rfl, rfl⟩
  | _ => all_goals simp [Pc.inCall] at hpc

/-- The sections that the calls in progress take at most. -/
def State.pending (s : State) : ℕ := (s.threads.map fun t => t.pc.rank).sum

theorem pending_advance {i : ℕ} {t : Thread} {sh : Shared} {pc : Pc} (ht : s.threads[i]? = some t)
    (hpc : pc.rank < t.pc.rank) : (s.advance i t.call sh pc).pending < s.pending := by
  obtain ⟨hi, hti⟩ := List.getElem?_eq_some_iff.1 ht
  have hs : s.threads = s.threads.take i ++ t :: s.threads.drop (i + 1) := by
    rw [← hti, List.getElem_cons_drop, List.take_append_drop]
  rw [State.pending, State.pending, State.advance, List.set_eq_take_append_cons_drop, if_pos hi]
  conv_rhs => rw [hs]
  simp only [List.map_append, List.map_cons, List.sum_append, List.sum_cons]
  omega

/-- A step of a call in progress leaves the signer as it is. -/
theorem Forgotten.advance (h : Forgotten s) {i : ℕ} {t : Thread} (ht : s.threads[i]? = some t)
    (hpc : t.pc.inCall = true) :
    ∃ s', s.step P max (.step i .ok) = some s' ∧ Forgotten s' ∧ s'.pending < s.pending := by
  obtain ⟨sh, pc, b, hn, hdown, hrank, ho, ho'⟩ :
      ∃ sh' pc' b, next P max s.shared t.call t.pc .ok = some (sh', pc', b) ∧ sh'.healthy = false ∧
        pc'.rank < t.pc.rank ∧ t.pc.outOfLoop = false ∧ pc'.outOfLoop = false := next_rank hpc h.down
  have hout : (s.advance i t.call sh pc).probeOut = true := (probeOut_advance ht ho ho').trans h.out
  refine ⟨s.advance i t.call sh pc, ?_, ⟨h.owned.advance ht hn, hdown, hout⟩, pending_advance ht hrank⟩
  have hstart := startProbe_of_probeOut hout
  rw [State.advance] at hstart
  rw [State.step, ht]
  simp only [Option.bind_eq_bind, Option.bind_some, hn]
  cases b
  · rfl
  · exact congrArg some hstart

/-- **The calls in progress can all return.** -/
theorem Forgotten.settle (h : Forgotten s) :
    ∃ as s', s.run P max as = some s' ∧ Forgotten s' ∧ s'.quiescent = true := by
  induction hn : s.pending using Nat.strong_induction_on generalizing s with
  | _ n ih =>
    subst hn
    cases hq : s.quiescent with
    | true => exact ⟨[], s, rfl, h, hq⟩
    | false =>
      obtain ⟨t, ht, hpc⟩ := List.all_eq_false.1 hq
      obtain ⟨i, hi⟩ := List.mem_iff_getElem?.1 ht
      obtain ⟨s₁, hs₁, h₁, hlt⟩ : ∃ s', s.step P max (.step i .ok) = some s' ∧ Forgotten s' ∧ s'.pending < s.pending :=
        h.advance hi (by simpa using hpc)
      obtain ⟨as, s', hs', h', hq'⟩ := ih _ hlt h₁ rfl
      exact ⟨.step i .ok :: as, s', by rw [State.run, hs₁]; exact hs', h', hq'⟩

/-- A step that leaves a start out forgets the primary. -/
theorem forgotten_of_skips (ho : Owned s) (hskip : skips max s a = true) (hs : s.step P max a = some s') :
    Forgotten s' := by
  obtain ⟨call, rfl, -, -⟩ | ⟨i, o, t, sh, pc, rfl, ht, h⟩ := step_cases hs
  · cases hskip
  · simp only [skips, ht, Option.any_some, Bool.and_eq_true] at hskip
    obtain ⟨hr, hout⟩ := hskip
    -- of the sections that call `_start_health_probe`, the flag is down after both
    have hpcs : next P max s.shared t.call t.pc o = some (sh, pc, true) ∧ t.pc.outOfLoop = false ∧
        pc.outOfLoop = false ∧ sh.healthy = false := by
      cases hpc : t.pc with
      | handleFailure =>
        rw [hpc, Pc.restarts, Bool.and_eq_true, decide_eq_true_eq] at hr
        simp only [hpc, next, if_pos hr] at h
        obtain ⟨h, -⟩ | ⟨h, -⟩ := h
        · simp at h
        · obtain ⟨rfl, rfl, -⟩ := by simpa using h
          exact ⟨by rw [next, if_pos hr], rfl, rfl, rfl⟩
      | startProbe =>
        simp only [hpc, Pc.restarts, Bool.not_eq_true'] at hr
        simp only [hpc, next] at h
        obtain ⟨h, -⟩ | ⟨h, -⟩ := h
        · simp at h
        · obtain ⟨rfl, rfl, -⟩ := by simpa using h
          exact ⟨rfl, rfl, rfl, hr⟩
      | _ => all_goals simp [hpc, Pc.restarts] at hr
    obtain ⟨hn, ho₁, ho₂, hdown⟩ := hpcs
    have hout' : (s.advance i t.call sh pc).probeOut = true := (probeOut_advance ht ho₁ ho₂).trans hout
    rcases h with ⟨h, -⟩ | ⟨-, rfl⟩
    · rw [hn] at h
      simp at h
    · rw [startProbe_of_probeOut hout']
      exact ⟨ho.advance ht hn, hdown, hout'⟩

/-- **Whether a failback is forgotten.**  In every state of a run that leaves no start out,
a signer whose flag is down with no call in progress has a thread that probes the
primary.  A run that leaves one out can go on to a state in which it has none. -/
theorem failback_remembered (P : Pair) (max : ℕ) :
    (∀ as s, State.init.run P max as = some s → startingRun P max .init as = true → s.remembered = true) ∧
      ∀ as s a s', State.init.run P max as = some s → skips max s a = true → s.step P max a = some s' →
        ∃ bs s'', s'.run P max bs = some s'' ∧ s''.remembered = false := by
  refine ⟨fun as s hs hk => ?_, fun as s a s' hs hk hstep => ?_⟩
  · exact (run_watched .init (fun h => by cases h) hk hs).remembered
  · have hf := forgotten_of_skips (Owned.run .init hs) hk hstep
    obtain ⟨bs, s'', hs'', hf, hq⟩ : ∃ bs s'', s'.run P max bs = some s'' ∧ Forgotten s'' ∧ s''.quiescent = true := hf.settle
    exact ⟨bs, s'', hs'', hf.not_remembered hq⟩

end

/-! Planned maintenance: the primary is switched off by hand, and the probe finds it well. -/

/-- `force_failover`; the probe gets its public key. -/
def maintenanceRun : List Action :=
  [.spawn .forceFailover, .step 0 .ok, .step 0 .ok, .step 1 .ok, .step 1 .ok]

/-- The flag goes up; before the failback is recorded the primary is switched off again. -/
def secondMaintenance : List Action := [.step 1 .ok, .spawn .forceFailover, .step 2 .ok]

/-- Both parts at these runs: after the first the primary is remembered, and the second ends
before a start that is left out. -/
theorem failback_remembered_maintenance :
    (∃ s, State.init.run samplePair 2 maintenanceRun = some s ∧ s.shared.healthy = false ∧ s.quiescent = true ∧
      s.remembered = true) ∧
      ∃ s s', State.init.run samplePair 2 (maintenanceRun ++ secondMaintenance) = some s ∧
        s.step samplePair 2 (.step 2 .ok) = some s' ∧
        ∃ bs s'', s'.run samplePair 2 bs = some s'' ∧ s''.remembered = false := by
  obtain ⟨s, hs, hdown, hq⟩ : ∃ s, State.init.run samplePair 2 maintenanceRun = some s ∧ s.shared.healthy = false ∧
      s.quiescent = true := ⟨_, rfl, rfl, rfl⟩
  obtain ⟨t, ht, t', ht', hskip⟩ : ∃ t, State.init.run samplePair 2 (maintenanceRun ++ secondMaintenance) = some t ∧
      ∃ t', t.step samplePair 2 (.step 2 .ok) = some t' ∧ skips 2 t (.step 2 .ok) = true :=
    ⟨_, rfl, _, rfl, rfl⟩
  have h := failback_remembered samplePair 2
  exact ⟨⟨s, hs, hdown, hq, h.1 _ _ hs rfl⟩, t, t', ht, ht', h.2 _ _ _ _ ht hskip ht'⟩

/-- **A failback is forgotten.**  The second switch finds the thread of the first one alive
and starts none; that thread records its failback and ends.  The primary is
marked unhealthy, no call is in progress and no thread probes it. -/
theorem maintenance_forgotten :
    ∃ s, State.init.run samplePair 2
        (maintenanceRun ++ secondMaintenance ++ [.step 2 .ok, .step 1 .ok, .step 1 .ok]) = some s ∧
      s.shared.healthy = false ∧ s.quiescent = true ∧ s.threads.any Thread.probing = false :=
  ⟨_, rfl, rfl, rfl, rfl⟩

end Failover
end ProvableAi
