/-
# The SIEM router

`SIEMRouter` in `siem.py`: `emit` puts an event on a bounded queue, worker
threads take events off it and pass each one to `send` of every transport in
turn, and `flush` flushes the transports and then waits until the queue is
empty.  The Splunk transport collects what is sent to it and posts it in
batches; the other three post every event.

The model takes one step for each section of an emitting thread, for each step
of a worker and for each transport that `flush` visits, and lets them take
steps in any order.  Posts are followed as far as the transport hands them over;
what the other side answers is logged and dropped.

`flush_delivers_iff` says what the state at the call of `flush` must be for every
event to be delivered when it returns: nothing on the queue and nothing in a
worker's hands.  The transports are visited before the queue is waited for, and
an event that a worker has taken is on the queue no more.
-/

import ProvableAi.Crypto.Hex
import ProvableAi.Json.Value
import Mathlib.Data.List.Perm.Basic

namespace ProvableAi
namespace Siem

/-! ### Events and transports -/

/-- `SIEMEvent`. -/
structure SiemEvent where
  event : String
  level : String
  tenantId : String
  traceId : String
  extras : List (String × Json)
  deriving DecidableEq

/-- `_LEVELS`. -/
def levels : List (String × ℕ) := [("debug", 0), ("info", 1), ("warning", 2), ("error", 3), ("critical", 4)]

/-- `_LEVELS.get(level.lower(), 1)`. -/
def levelOf (level : String) : ℕ := (levels.lookup (lower level)).getD 1

/-- The classes of transports; the Splunk one has a batch size. -/
inductive TransportKind where
  | webhook
  | syslog
  | splunk (batchSize : ℤ)
  | datadog
  deriving DecidableEq

/-- A transport: the events passed to `send`, the batches posted, and `_buffer`. -/
structure Transport where
  kind : TransportKind
  sent : List SiemEvent
  posted : List (List SiemEvent)
  buffer : List SiemEvent
  deriving DecidableEq

/-- `_flush_locked`. -/
def Transport.flushLocked (t : Transport) : Transport :=
  if t.buffer = [] then t else { t with posted := t.posted ++ [t.buffer], buffer := [] }

/-- `send`. -/
def Transport.send (t : Transport) (e : SiemEvent) : Transport :=
  match t.kind with
  | .splunk batchSize =>
    let t := { t with sent := t.sent ++ [e], buffer := t.buffer ++ [e] }
    if batchSize ≤ t.buffer.length then t.flushLocked else t
  | _ => { t with sent := t.sent ++ [e], posted := t.posted ++ [[e]] }

/-- `flush`: nothing is collected but for Splunk. -/
def Transport.flush (t : Transport) : Transport :=
  match t.kind with
  | .splunk _ => t.flushLocked
  | _ => t

/-! ### The router -/

/-- What a worker has taken off the queue: the event and the number of the transport that
gets it next. -/
structure Hand where
  event : SiemEvent
  next : ℕ
  deriving DecidableEq

/-- Where the call of `flush` is. -/
inductive FlushPc where
  | idle
  /-- The transport that is flushed next; past the last one, the loop. -/
  | visiting (i : ℕ)
  /-- The queue was empty. -/
  | returned
  /-- The deadline was over. -/
  | expired
  deriving DecidableEq

def FlushPc.inProgress : FlushPc → Bool
  | .visiting _ => true
  | _ => false

/-- `_min_level` and the size of the queue, where zero and below is no bound. -/
structure Config where
  minLevel : ℕ
  queueSize : ℤ

/-- The router, with the events that were counted as emitted and as dropped. -/
structure Router where
  transports : List Transport
  queue : List SiemEvent
  /-- Counted by `emit` and not put on the queue yet. -/
  emitting : List SiemEvent
  workers : List (Option Hand)
  flush : FlushPc
  emitted : List SiemEvent
  dropped : List SiemEvent
  deriving DecidableEq

/-- After `__init__`. -/
def Router.init (kinds : List TransportKind) (workers : ℕ) : Router where
  transports := kinds.map fun k => ⟨k, [], [], []⟩
  queue := []
  emitting := []
  workers := List.replicate workers none
  flush := .idle
  emitted := []
  dropped := []

inductive Action where
  /-- `emit` up to the counter. -/
  | emit (e : SiemEvent)
  /-- `put_nowait` of an event that was counted. -/
  | put (i : ℕ)
  /-- A worker takes an event off the queue. -/
  | get (w : ℕ)
  /-- It passes it to the next transport. -/
  | send (w : ℕ)
  /-- It has passed it to all. -/
  | taskDone (w : ℕ)
  | callFlush
  /-- `flush` visits a transport. -/
  | flushTransport
  /-- `flush` finds the queue empty. -/
  | flushReturn
  /-- `flush` finds the deadline over. -/
  | flushExpire
  deriving DecidableEq

/-- `queue.Full`. -/
def Router.full (c : Config) (s : Router) : Prop := 0 < c.queueSize ∧ c.queueSize ≤ s.queue.length

instance (c : Config) (s : Router) : Decidable (s.full c) := inferInstanceAs (Decidable (_ ∧ _))

/-- One step; `none` where the thread has nothing to do. -/
def Router.step (c : Config) (s : Router) : Action → Option Router
  | .emit e =>
    if levelOf e.level < c.minLevel then some s
    else some { s with emitted := s.emitted ++ [e], emitting := s.emitting ++ [e] }
  | .put i =>
    match s.emitting[i]? with
    | none => none
    | some e =>
      let s := { s with emitting := s.emitting.eraseIdx i }
      if s.full c then some { s with dropped := s.dropped ++ [e] } else some { s with queue := s.queue ++ [e] }
  | .get w =>
    match s.workers[w]?, s.queue with
    | some none, e :: queue => some { s with queue := queue, workers := s.workers.set w (some ⟨e, 0⟩) }
    | _, _ => none
  | .send w =>
    match s.workers[w]? with
    | some (some hand) =>
      if hand.next < s.transports.length then
        some { s with
          transports := s.transports.modify hand.next fun t => t.send hand.event
          workers := s.workers.set w (some ⟨hand.event, hand.next + 1⟩) }
      else none
    | _ => none
  | .taskDone w =>
    match s.workers[w]? with
    | some (some hand) =>
      if hand.next < s.transports.length then none else some { s with workers := s.workers.set w none }
    | _ => none
  | .callFlush => if s.flush.inProgress then none else some { s with flush := .visiting 0 }
  | .flushTransport =>
    match s.flush with
    | .visiting i =>
      if i < s.transports.length then
        some { s with transports := s.transports.modify i Transport.flush, flush := .visiting (i + 1) }
      else none
    | _ => none
  | .flushReturn =>
    if s.flush = .visiting s.transports.length ∧ s.queue = [] then some { s with flush := .returned } else none
  | .flushExpire =>
    if s.flush = .visiting s.transports.length ∧ s.queue ≠ [] then some { s with flush := .expired } else none

/-- A run. -/
def Router.run (c : Config) : Router → List Action → Option Router
  | s, [] => some s
  | s, a :: as => do
    let t ← s.step c a
    Router.run c t as

/-! ### What is delivered -/

/-- Every event that was emitted and not dropped has been passed to `send` of every
transport once, and no transport holds one back. -/
def Router.Delivered (s : Router) : Prop :=
  ∀ t ∈ s.transports, (t.sent ++ s.dropped).Perm s.emitted ∧ t.buffer = []

instance (s : Router) : Decidable s.Delivered := inferInstanceAs (Decidable (∀ _ ∈ _, _ ∧ _))

/-- Nothing is on the queue and no worker has a transport left for what it holds; or there
is no transport; or there is an event on the queue and no worker. -/
def Router.Settled (s : Router) : Prop :=
  s.transports = [] ∨ (s.queue = [] ∧ ∀ w ∈ s.workers, ∀ hand ∈ w, s.transports.length ≤ hand.next) ∨
    s.workers = [] ∧ s.queue ≠ []

/-- A thread calls `emit`. -/
def Action.isEmit : Action → Bool
  | .emit _ => true
  | _ => false

/-! ### Transports -/

namespace Transport

@[simp] theorem flushLocked_sent (t : Transport) : t.flushLocked.sent = t.sent := by
  rw [flushLocked]
  split_ifs <;> rfl

@[simp] theorem flushLocked_buffer (t : Transport) : t.flushLocked.buffer = [] := by
  rw [flushLocked]
  split_ifs with h
  · exact h
  · rfl

@[simp] theorem flushLocked_kind (t : Transport) : t.flushLocked.kind = t.kind := by
  rw [flushLocked]
  split_ifs <;> rfl

@[simp] theorem send_sent (t : Transport) (e : SiemEvent) : (t.send e).sent = t.sent ++ [e] := by
  cases t with
  | mk kind sent posted buffer =>
    cases kind <;> simp only [send]
    split_ifs <;> simp

@[simp] theorem flush_sent (t : Transport) : t.flush.sent = t.sent := by
  cases t with
  | mk kind sent posted buffer => cases kind <;> simp [flush]

/-- What was sent is posted or in the buffer, in this order, and the buffer is Splunk's. -/
structure Kept (t : Transport) : Prop where
  sent : t.sent = t.posted.flatten ++ t.buffer
  buffer : t.buffer ≠ [] → ∃ n, t.kind = .splunk n

theorem Kept.flushLocked {t : Transport} (h : t.Kept) : t.flushLocked.Kept := by
  rw [Transport.flushLocked]
  split_ifs with hb
  · exact h
  · exact ⟨by simp [h.sent], fun hne => absurd rfl hne⟩

theorem Kept.send {t : Transport} (h : t.Kept) (e : SiemEvent) : (t.send e).Kept := by
  obtain ⟨kind, sent, posted, buffer⟩ := t
  have hs : sent = posted.flatten ++ buffer := h.sent
  have hplain : (∀ n, kind ≠ .splunk n) → buffer = [] := fun hk => by
    by_contra hb
    obtain ⟨n, hn⟩ := h.buffer hb
    exact hk n hn
  cases kind with
  | splunk n =>
    have hk : Kept ⟨.splunk n, sent ++ [e], posted, buffer ++ [e]⟩ := ⟨by simp [hs], fun _ => ⟨n, rfl⟩⟩
    simp only [Transport.send]
    split_ifs
    · exact hk.flushLocked
    · exact hk
  | _ =>
    all_goals
      have hb := hplain (by simp)
      subst hb
      exact ⟨by simp [Transport.send, hs], fun hne => absurd rfl hne⟩

theorem Kept.flush {t : Transport} (h : t.Kept) : t.flush.Kept := by
  rw [Transport.flush]
  split
  · exact h.flushLocked
  · exact h

/-- A visit of `flush` leaves nothing in the buffer. -/
theorem Kept.flush_buffer {t : Transport} (h : t.Kept) : t.flush.buffer = [] := by
  rw [Transport.flush]
  split
  · exact flushLocked_buffer t
  · rename_i hk
    by_contra hb
    obtain ⟨n, hn⟩ := h.buffer hb
    exact hk n hn

end Transport

/-! ### Every event is somewhere -/

/-- The event in a worker's hand, if the transport at `j` has not got it yet. -/
def handAt (j : ℕ) : Option Hand → List SiemEvent
  | some hand => if hand.next ≤ j then [hand.event] else []
  | none => []

/-- The events in the workers' hands that the transport at `j` has not got yet. -/
def Router.held (s : Router) (j : ℕ) : List SiemEvent := s.workers.flatMap (handAt j)

/-- Every event that was counted has been sent to a transport, or is in a hand before it, on
the queue, before the queue, or dropped. -/
def Router.Accounted (s : Router) : Prop :=
  ∀ j t, s.transports[j]? = some t → ∀ e,
    t.sent.count e + (s.held j).count e + s.queue.count e + s.emitting.count e + s.dropped.count e = s.emitted.count e

/-- What holds in every state. -/
structure Router.Inv (s : Router) : Prop where
  accounted : s.Accounted
  kept : ∀ t ∈ s.transports, t.Kept

theorem count_flatMap_set {α : Type*} (f : α → List SiemEvent) (e : SiemEvent) {l : List α} :
    ∀ {w : ℕ} {x y : α}, l[w]? = some x →
      ((l.set w y).flatMap f).count e + (f x).count e = (l.flatMap f).count e + (f y).count e := by
  induction l with
  | nil => intro w x y h; cases h
  | cons a l ih =>
    intro w x y h
    cases w with
    | zero =>
      obtain rfl := Option.some.inj h
      simp only [List.set_cons_zero, List.flatMap_cons, List.count_append]
      omega
    | succ w =>
      have h' := ih (y := y) (w := w) h
      simp only [List.set_cons_succ, List.flatMap_cons, List.count_append]
      omega

theorem count_eraseIdx {l : List SiemEvent} {i : ℕ} {x : SiemEvent} (h : l[i]? = some x) (e : SiemEvent) :
    (l.eraseIdx i).count e + [x].count e = l.count e := by
  obtain ⟨hi, hx⟩ := List.getElem?_eq_some_iff.1 h
  rw [← (List.getElem_cons_eraseIdx_perm hi).count_eq, hx, List.count_cons, List.count_cons]
  simp

section

variable {c : Config} {s s' : Router} {a : Action}

theorem Router.Inv.init (kinds : List TransportKind) (workers : ℕ) : (Router.init kinds workers).Inv where
  accounted := by
    intro j t ht e
    obtain ⟨k, -, rfl⟩ := List.mem_map.1 (List.mem_of_getElem? ht)
    have hnone : (List.replicate workers none).flatMap (handAt j) = [] :=
      List.flatMap_eq_nil_iff.2 fun x hx => by rw [List.eq_of_mem_replicate hx]; rfl
    simp [Router.init, Router.held, hnone]
  kept := by
    intro t ht
    obtain ⟨k, -, rfl⟩ := List.mem_map.1 ht
    exact ⟨rfl, fun h => absurd rfl h⟩

/-- **One step** loses no event and sends none twice. -/
theorem Router.Inv.step (h : s.Inv) (hs : s.step c a = some s') : s'.Inv := by
  obtain ⟨hacc, hkept⟩ := h
  cases a with
  | emit e =>
    simp only [Router.step] at hs
    split_ifs at hs
    · exact Option.some.inj hs ▸ ⟨hacc, hkept⟩
    · rw [← Option.some.inj hs]
      refine ⟨fun j t ht x => ?_, hkept⟩
      have := hacc j t ht x
      simp only [Router.held, List.count_append] at this ⊢
      omega
  | put i =>
    simp only [Router.step] at hs
    cases he : s.emitting[i]? with
    | none => rw [he] at hs; cases hs
    | some e =>
      simp only [he] at hs
      split_ifs at hs <;> rw [← Option.some.inj hs] <;> refine ⟨fun j t ht x => ?_, hkept⟩
      all_goals
        have := hacc j t ht x
        have := count_eraseIdx he x
        simp only [Router.held, List.count_append] at *
        omega
  | get w =>
    simp only [Router.step] at hs
    split at hs
    · rename_i e queue hw hq
      rw [← Option.some.inj hs]
      refine ⟨fun j t ht x => ?_, hkept⟩
      have := hacc j t ht x
      have := count_flatMap_set (handAt j) x (y := some ⟨e, 0⟩) hw
      simp only [Router.held, hq, handAt, Nat.zero_le, if_true, List.count_cons, List.count_nil] at *
      omega
    · cases hs
  | send w =>
    simp only [Router.step] at hs
    split at hs
    · rename_i hand hw
      split_ifs at hs with hlt
      rw [← Option.some.inj hs]
      refine ⟨fun j t ht x => ?_, fun t ht => ?_⟩
      · have hset := count_flatMap_set (handAt j) x (y := some ⟨hand.event, hand.next + 1⟩) hw
        rw [List.getElem?_modify] at ht
        obtain ⟨u, hu, rfl⟩ := Option.map_eq_some_iff.1 ht
        have := hacc j u hu x
        simp only [Router.held, handAt] at *
        by_cases hj : hand.next = j
        · rw [if_pos hj]
          rw [if_pos (by omega), if_neg (by omega)] at hset
          simp only [Transport.send_sent, List.count_append, List.count_nil] at *
          omega
        · rw [if_neg hj]
          have hle : hand.next + 1 ≤ j ↔ hand.next ≤ j := by omega
          simp only [hle] at hset
          omega
      · obtain ⟨k, hk⟩ := List.mem_iff_getElem?.1 ht
        rw [List.getElem?_modify] at hk
        obtain ⟨u, hu, rfl⟩ := Option.map_eq_some_iff.1 hk
        have huk := hkept u (List.mem_of_getElem? hu)
        split_ifs
        · exact huk.send _
        · exact huk
    · cases hs
  | taskDone w =>
    simp only [Router.step] at hs
    split at hs
    · rename_i hand hw
      split_ifs at hs with hlt
      rw [← Option.some.inj hs]
      refine ⟨fun j t ht x => ?_, hkept⟩
      have hj : j < s.transports.length := (List.getElem?_eq_some_iff.1 ht).1
      have := hacc j t ht x
      have hset := count_flatMap_set (handAt j) x (y := none) hw
      simp only [handAt] at hset
      rw [if_neg (by omega)] at hset
      simp only [Router.held, List.count_nil] at *
      omega
    · cases hs
  | callFlush =>
    simp only [Router.step] at hs
    split_ifs at hs
    exact Option.some.inj hs ▸ ⟨hacc, hkept⟩
  | flushTransport =>
    simp only [Router.step] at hs
    split at hs
    · split_ifs at hs with hlt
      rw [← Option.some.inj hs]
      refine ⟨fun j t ht x => ?_, fun t ht => ?_⟩
      · rw [List.getElem?_modify] at ht
        obtain ⟨u, hu, rfl⟩ := Option.map_eq_some_iff.1 ht
        have := hacc j u hu x
        split_ifs
        · simpa [Router.held] using this
        · simpa [Router.held] using this
      · obtain ⟨k, hk⟩ := List.mem_iff_getElem?.1 ht
        rw [List.getElem?_modify] at hk
        obtain ⟨u, hu, rfl⟩ := Option.map_eq_some_iff.1 hk
        have huk := hkept u (List.mem_of_getElem? hu)
        split_ifs
        · exact huk.flush
        · exact huk
    · cases hs
  | flushReturn =>
    simp only [Router.step] at hs
    split_ifs at hs
    exact Option.some.inj hs ▸ ⟨hacc, hkept⟩
  | flushExpire =>
    simp only [Router.step] at hs
    split_ifs at hs
    exact Option.some.inj hs ▸ ⟨hacc, hkept⟩

theorem Router.Inv.run {as : List Action} (h : s.Inv) (hs : s.run c as = some s') : s'.Inv := by
  induction as generalizing s with
  | nil => exact Option.some.inj hs ▸ h
  | cons a as ih =>
    obtain ⟨t, ht, hs⟩ := Option.bind_eq_some_iff.1 hs
    exact ih (h.step ht) hs

/-! ### After the call of `flush`, nothing left to do -/

/-- Nothing is left for the workers, and `flush` has emptied what it has visited. -/
structure Router.Quiet (s : Router) : Prop where
  queue : s.queue = []
  emitting : s.emitting = []
  hands : ∀ w ∈ s.workers, ∀ hand ∈ w, s.transports.length ≤ hand.next
  visited : ∀ i, s.flush = .visiting i → ∀ j < i, ∀ t, s.transports[j]? = some t → t.buffer = []
  returned : s.flush = .returned → ∀ t ∈ s.transports, t.buffer = []

/-- **One step** that is no `emit` leaves it so. -/
theorem Router.Quiet.step (h : s.Quiet) (hk : ∀ t ∈ s.transports, t.Kept) (ha : a.isEmit = false)
    (hs : s.step c a = some s') : s'.Quiet := by
  obtain ⟨hq, he, hh, hv, hr⟩ := h
  cases a with
  | emit e => cases ha
  | put i => simp [Router.step, he] at hs
  | get w =>
    simp only [Router.step, hq] at hs
    split at hs
    · rename_i h
      cases h
    · cases hs
  | send w =>
    simp only [Router.step] at hs
    split at hs
    · rename_i hand hw
      split_ifs at hs with hlt
      exact absurd (hh _ (List.mem_of_getElem? hw) hand rfl) (by omega)
    · cases hs
  | taskDone w =>
    simp only [Router.step] at hs
    split at hs
    · split_ifs at hs
      rw [← Option.some.inj hs]
      refine ⟨hq, he, fun v hv hand hhand => ?_, hv, hr⟩
      rcases List.mem_or_eq_of_mem_set hv with hv | rfl
      · exact hh v hv hand hhand
      · cases hhand
    · cases hs
  | callFlush =>
    simp only [Router.step] at hs
    split_ifs at hs
    rw [← Option.some.inj hs]
    refine ⟨hq, he, hh, fun i hi j hj => ?_, fun h => by cases h⟩
    obtain rfl := FlushPc.visiting.inj hi
    omega
  | flushTransport =>
    simp only [Router.step] at hs
    split at hs
    · rename_i i hi
      split_ifs at hs with hlt
      rw [← Option.some.inj hs]
      refine ⟨hq, he, by simpa using hh, fun k hik j hj t ht => ?_, fun h => by cases h⟩
      obtain rfl := FlushPc.visiting.inj hik
      rw [List.getElem?_modify] at ht
      obtain ⟨u, hu, rfl⟩ := Option.map_eq_some_iff.1 ht
      -- the transport that is visited now, or one before it
      split_ifs with hij
      · exact (hk u (List.mem_of_getElem? hu)).flush_buffer
      · exact hv i hi j (by omega) u hu
    · cases hs
  | flushReturn =>
    simp only [Router.step] at hs
    split_ifs at hs with h
    rw [← Option.some.inj hs]
    refine ⟨hq, he, hh, (fun i hi => by cases hi), fun _ t ht => ?_⟩
    obtain ⟨j, hj⟩ := List.mem_iff_getElem?.1 ht
    exact hv _ h.1 j (List.getElem?_eq_some_iff.1 hj).1 t hj
  | flushExpire =>
    simp only [Router.step] at hs
    split_ifs at hs with h
    exact absurd hq h.2

theorem Router.Quiet.run {as : List Action} (h : s.Quiet) (hi : s.Inv) (ha : ∀ a ∈ as, a.isEmit = false)
    (hs : s.run c as = some s') : s'.Quiet := by
  induction as generalizing s with
  | nil => exact Option.some.inj hs ▸ h
  | cons a as ih =>
    obtain ⟨t, ht, hs⟩ := Option.bind_eq_some_iff.1 hs
    exact ih (h.step hi.kept (ha a (List.mem_cons_self ..)) ht) (hi.step ht)
      (fun b hb => ha b (List.mem_cons_of_mem _ hb)) hs

/-- When `flush` returns then, all is delivered. -/
theorem Router.Quiet.delivered (h : s.Quiet) (hi : s.Inv) (hr : s.flush = .returned) : s.Delivered := by
  refine fun t ht => ⟨List.perm_iff_count.2 fun e => ?_, h.returned hr t ht⟩
  obtain ⟨j, hj⟩ := List.mem_iff_getElem?.1 ht
  have hacc := hi.accounted j t hj e
  have hlt := (List.getElem?_eq_some_iff.1 hj).1
  have hheld : s.held j = [] := List.flatMap_eq_nil_iff.2 fun w hw => by
    cases w with
    | none => rfl
    | some hand => exact if_neg (by have := h.hands _ hw hand rfl; omega)
  rw [List.count_append]
  simp only [hheld, h.queue, h.emitting, List.count_nil] at hacc
  omega

/-- No step adds or removes a transport or a worker. -/
theorem step_lengths (hs : s.step c a = some s') :
    s'.transports.length = s.transports.length ∧ s'.workers.length = s.workers.length := by
  cases a <;> simp only [Router.step] at hs <;> (try split at hs) <;> (try split_ifs at hs) <;>
    (try cases hs) <;> simp

theorem run_lengths {as : List Action} (hs : s.run c as = some s') :
    s'.transports.length = s.transports.length ∧ s'.workers.length = s.workers.length := by
  induction as generalizing s with
  | nil => exact Option.some.inj hs ▸ ⟨rfl, rfl⟩
  | cons a as ih =>
    obtain ⟨t, ht, hs⟩ := Option.bind_eq_some_iff.1 hs
    have h := step_lengths ht
    have h' := ih hs
    exact ⟨h'.1.trans h.1, h'.2.trans h.2⟩

/-- Without a worker nothing is taken off the queue, and `flush` does not return. -/
theorem step_stuck (hw : s.workers = []) (hq : s.queue ≠ []) (hf : s.flush ≠ .returned) (hs : s.step c a = some s') :
    s'.queue ≠ [] ∧ s'.flush ≠ .returned := by
  cases a <;> simp only [Router.step, hw, List.getElem?_nil, reduceCtorEq] at hs <;> (try split at hs) <;>
    (try split_ifs at hs) <;> simp_all <;> (subst hs; simp_all)

theorem run_stuck {as : List Action} (hw : s.workers = []) (hq : s.queue ≠ []) (hf : s.flush ≠ .returned)
    (hs : s.run c as = some s') : s'.flush ≠ .returned := by
  induction as generalizing s with
  | nil => exact Option.some.inj hs ▸ hf
  | cons a as ih =>
    obtain ⟨t, ht, hs⟩ := Option.bind_eq_some_iff.1 hs
    have h := step_stuck hw hq hf ht
    exact ih (List.length_eq_zero_iff.1 (by rw [(step_lengths ht).2, hw]; rfl)) h.1 h.2 hs

/-! ### What is left to do can be left out -/

theorem run_append {as bs : List Action} (h : s.run c as = some s') : s.run c (as ++ bs) = s'.run c bs := by
  induction as generalizing s with
  | nil => rw [← Option.some.inj h]; rfl
  | cons a as ih =>
    obtain ⟨t, ht, h⟩ := Option.bind_eq_some_iff.1 h
    rw [List.cons_append, Router.run, ht]
    exact ih h

/-- A run without `emit` takes the router from one state to another. -/
def Reaches (c : Config) (s s' : Router) : Prop := ∃ as, (∀ a ∈ as, a.isEmit = false) ∧ s.run c as = some s'

theorem Reaches.refl (s : Router) : Reaches c s s := ⟨[], (fun _ h => by cases h), rfl⟩

theorem Reaches.trans {t : Router} (h : Reaches c s t) (h' : Reaches c t s') : Reaches c s s' := by
  obtain ⟨as, ha, hs⟩ := h
  obtain ⟨bs, hb, ht⟩ := h'
  exact ⟨as ++ bs, fun a hab => (List.mem_append.1 hab).elim (ha a) (hb a), (run_append hs).trans ht⟩

theorem Reaches.single (ha : a.isEmit = false) (hs : s.step c a = some s') : Reaches c s s' :=
  ⟨[a], by simpa using ha, by rw [Router.run, hs]; rfl⟩

theorem Reaches.lengths (h : Reaches c s s') :
    s'.transports.length = s.transports.length ∧ s'.workers.length = s.workers.length := by
  obtain ⟨as, -, hs⟩ := h
  exact run_lengths hs

/-- `flush` visits the transports that are left, and nothing else moves. -/
theorem visit_all (c : Config) {k : ℕ} : ∀ {s : Router} {i : ℕ}, s.flush = .visiting i → i + k = s.transports.length →
    ∃ s', Reaches c s s' ∧ s'.flush = .visiting s'.transports.length ∧ s'.queue = s.queue ∧ s'.workers = s.workers := by
  induction k with
  | zero =>
    intro s i hi hk
    exact ⟨s, .refl s, by rw [hi, ← hk, Nat.add_zero], rfl, rfl⟩
  | succ k ih =>
    intro s i hi hk
    obtain ⟨s₁, hs, hf₁, hl₁, hq₁, hw₁⟩ : ∃ s₁, s.step c .flushTransport = some s₁ ∧ s₁.flush = .visiting (i + 1) ∧
        s₁.transports.length = s.transports.length ∧ s₁.queue = s.queue ∧ s₁.workers = s.workers := by
      simp only [Router.step, hi]
      rw [if_pos (by omega)]
      exact ⟨_, rfl, rfl, List.length_modify .., rfl, rfl⟩
    obtain ⟨s', hr, hf, hq, hw⟩ := ih hf₁ (by omega)
    exact ⟨s', (Reaches.single rfl hs).trans hr, hf, hq.trans hq₁, hw.trans hw₁⟩

/-- A worker passes its event to the transports that are left, and is free again. -/
theorem finish_hand (c : Config) {k w : ℕ} : ∀ {s : Router} {hand : Hand}, s.workers[w]? = some (some hand) →
    s.transports.length ≤ hand.next + k →
    ∃ s', Reaches c s s' ∧ s'.workers[w]? = some none ∧ s'.queue = s.queue ∧ s'.flush = s.flush := by
  have hdone : ∀ {s : Router} {hand : Hand}, s.workers[w]? = some (some hand) → s.transports.length ≤ hand.next →
      ∃ s', Reaches c s s' ∧ s'.workers[w]? = some none ∧ s'.queue = s.queue ∧ s'.flush = s.flush := by
    intro s hand hw hle
    refine ⟨{ s with workers := s.workers.set w none }, .single (a := .taskDone w) rfl ?_,
      List.getElem?_set_self (List.getElem?_eq_some_iff.1 hw).1, rfl, rfl⟩
    simp only [Router.step, hw]
    exact if_neg (by omega)
  induction k with
  | zero => exact fun hw hle => hdone hw hle
  | succ k ih =>
    intro s hand hw hle
    by_cases hlt : hand.next < s.transports.length
    · obtain ⟨s₁, hs, hw₁, hl₁, hq₁, hf₁⟩ : ∃ s₁, s.step c (.send w) = some s₁ ∧
          s₁.workers[w]? = some (some ⟨hand.event, hand.next + 1⟩) ∧
          s₁.transports.length = s.transports.length ∧ s₁.queue = s.queue ∧ s₁.flush = s.flush := by
        simp only [Router.step, hw]
        rw [if_pos hlt]
        exact ⟨_, rfl, List.getElem?_set_self (List.getElem?_eq_some_iff.1 hw).1, List.length_modify .., rfl, rfl⟩
      obtain ⟨s', hr, hw', hq, hf⟩ := ih hw₁ (by simp only; omega)
      exact ⟨s', (Reaches.single rfl hs).trans hr, hw', hq.trans hq₁, hf.trans hf₁⟩
    · exact hdone hw (by omega)

/-- A worker takes the events off the queue, the last one into its hand. -/
theorem drain (c : Config) {w : ℕ} {queue : List SiemEvent} : ∀ {s : Router} {x : Option Hand} {e : SiemEvent},
    s.workers[w]? = some x → s.queue = e :: queue →
    ∃ s' hand, Reaches c s s' ∧ s'.queue = [] ∧ s'.flush = s.flush ∧ some hand ∈ s'.workers ∧ hand.next = 0 := by
  have htake : ∀ {s : Router} {x : Option Hand} {e : SiemEvent} {queue : List SiemEvent}, s.workers[w]? = some x →
      s.queue = e :: queue → ∃ s', Reaches c s s' ∧ s'.queue = queue ∧ s'.flush = s.flush ∧
        s'.workers[w]? = some (some ⟨e, 0⟩) := by
    intro s x e queue hw hq
    obtain ⟨s₁, hr₁, hw₁, hq₁, hf₁⟩ : ∃ s₁, Reaches c s s₁ ∧ s₁.workers[w]? = some none ∧ s₁.queue = s.queue ∧
        s₁.flush = s.flush := by
      cases x with
      | none => exact ⟨s, .refl s, hw, rfl, rfl⟩
      | some hand => exact finish_hand c hw (Nat.le_add_left _ _)
    refine ⟨{ s₁ with queue := queue, workers := s₁.workers.set w (some ⟨e, 0⟩) },
      hr₁.trans (.single (a := .get w) rfl ?_), rfl, hf₁, List.getElem?_set_self (List.getElem?_eq_some_iff.1 hw₁).1⟩
    simp only [Router.step, hw₁, hq₁, hq]
  induction queue with
  | nil =>
    intro s x e hw hq
    obtain ⟨s', hr, hq', hf, hw'⟩ := htake hw hq
    exact ⟨s', ⟨e, 0⟩, hr, hq', hf, List.mem_of_getElem? hw', rfl⟩
  | cons d queue ih =>
    intro s x e hw hq
    obtain ⟨s₁, hr₁, hq₁, hf₁, hw₁⟩ := htake hw hq
    obtain ⟨s', hand, hr, hq', hf, hh⟩ := ih hw₁ hq₁
    exact ⟨s', hand, hr₁.trans hr, hq', hf.trans hf₁, hh⟩

/-- An event in a hand with a transport left is not delivered. -/
theorem Router.Inv.not_delivered (h : s.Inv) {hand : Hand} (hh : some hand ∈ s.workers)
    (hlt : hand.next < s.transports.length) : ¬ s.Delivered := by
  intro hd
  have ht := List.getElem?_eq_getElem hlt
  have hperm := (hd _ (List.mem_of_getElem? ht)).1.count_eq hand.event
  have hacc := h.accounted _ _ ht hand.event
  have hmem : hand.event ∈ s.held hand.next :=
    List.mem_flatMap.2 ⟨some hand, hh, by simp [handAt]⟩
  have hpos := List.count_pos_iff.2 hmem
  rw [List.count_append] at hperm
  omega

/-- Where something is left to do, `flush` can return before it is done. -/
theorem exists_undelivered (hi : s.Inv) (hf : s.flush.inProgress = false) (hn : ¬ s.Settled) :
    ∃ as s', (∀ a ∈ as, a.isEmit = false) ∧ s.run c (.callFlush :: as) = some s' ∧ s'.flush = .returned ∧
      ¬ s'.Delivered := by
  simp only [Router.Settled, not_or, not_and, not_forall, Decidable.not_not] at hn
  obtain ⟨hne, hhand, hwork⟩ := hn
  have hpos : 0 < s.transports.length := List.length_pos_iff.2 hne
  have hcall : s.step c .callFlush = some { s with flush := .visiting 0 } := by simp [Router.step, hf]
  obtain ⟨s₁, hr₁, hf₁, hq₁, hw₁⟩ := visit_all c (s := { s with flush := .visiting 0 }) rfl (Nat.zero_add _)
  have hlen₁ : s₁.transports.length = s.transports.length := hr₁.lengths.1
  -- the queue gets empty with an event in a hand
  obtain ⟨s₂, hand, hr₂, hq₂, hf₂, hmem, hlt⟩ : ∃ s₂ hand, Reaches c s₁ s₂ ∧ s₂.queue = [] ∧ s₂.flush = s₁.flush ∧
      some hand ∈ s₂.workers ∧ hand.next < s.transports.length := by
    cases hq : s.queue with
    | nil =>
      obtain ⟨w, hw, hand, hh, hlt⟩ := hhand hq
      obtain rfl : w = some hand := hh
      exact ⟨s₁, hand, .refl _, hq₁.trans hq, rfl, by rw [hw₁]; exact hw, by omega⟩
    | cons e queue =>
      obtain ⟨x, ws, hws⟩ := List.exists_cons_of_ne_nil fun h => by simpa [hq] using hwork h
      have hx : s₁.workers[0]? = some x := by
        rw [hw₁]
        exact congrArg (fun l => l[0]?) hws
      obtain ⟨s₂, hand, hr, hq₂, hf₂, hh, h0⟩ := drain c hx (hq₁.trans hq)
      exact ⟨s₂, hand, hr, hq₂, hf₂, hh, by omega⟩
  have hlen₂ : s₂.transports.length = s.transports.length := hr₂.lengths.1.trans hlen₁
  have hret : s₂.step c .flushReturn = some { s₂ with flush := .returned } := by
    simp only [Router.step]
    exact if_pos ⟨by rw [hf₂, hf₁, hr₂.lengths.1], hq₂⟩
  obtain ⟨as, ha, hrun⟩ := (hr₁.trans hr₂).trans (.single rfl hret)
  have hall : s.run c (.callFlush :: as) = some { s₂ with flush := .returned } := by
    rw [Router.run, hcall]
    exact hrun
  exact ⟨as, _, ha, hall, rfl, (hi.run hall).not_delivered hmem (hlen₂ ▸ hlt)⟩

/-- **What `flush` delivers.**  Called in a state that a run reaches, with no `emit` in
progress or to come, `flush` returns with every event delivered, in every order
of the steps, exactly if the workers had nothing left to do when it was called. -/
theorem flush_delivers_iff (c : Config) (kinds : List TransportKind) (workers : ℕ) {before : List Action} {s : Router}
    (hs : (Router.init kinds workers).run c before = some s) (hemit : s.emitting = [])
    (hflush : s.flush.inProgress = false) :
    (∀ as s', (∀ a ∈ as, a.isEmit = false) → s.run c (.callFlush :: as) = some s' → s'.flush = .returned →
      s'.Delivered) ↔ s.Settled := by
  have hi : s.Inv := (Router.Inv.init kinds workers).run hs
  refine ⟨fun h => ?_, fun h as s' ha hrun hret => ?_⟩
  · by_contra hn
    obtain ⟨as, s', ha, hrun, hret, hnot⟩ := exists_undelivered (c := c) hi hflush hn
    exact hnot (h as s' ha hrun hret)
  · have hlen := (run_lengths hrun).1
    obtain ⟨t, ht, hrun'⟩ := Option.bind_eq_some_iff.1 hrun
    have hcall : t = { s with flush := .visiting 0 } := by
      simp only [Router.step, hflush, Bool.false_eq_true, if_false] at ht
      exact (Option.some.inj ht).symm
    rcases h with h | ⟨hq, hh⟩ | ⟨hw, hq⟩
    · intro u hu
      rw [h, List.length_nil] at hlen
      rw [List.length_eq_zero_iff.1 hlen] at hu
      cases hu
    · have hquiet : t.Quiet := by
        rw [hcall]
        refine ⟨hq, hemit, hh, fun i hi j hj => ?_, fun h => by cases h⟩
        obtain rfl := FlushPc.visiting.inj hi
        omega
      exact (hquiet.run (hi.step ht) ha hrun').delivered (hi.run hrun) hret
    · rw [hcall] at hrun'
      exact absurd hret (run_stuck (s := { s with flush := .visiting 0 }) hw hq (by simp) hrun')

end

/-! One Splunk transport with the default batch size, the default workers, one event. -/

/-- The event of the module's docstring. -/
def sampleEvent : SiemEvent := ⟨"decision_recorded", "info", "bank_abc", "", []⟩

/-- The defaults. -/
def sampleConfig : Config := ⟨1, 1000⟩

/-- It is emitted, taken off the queue and sent before `flush` is called: it is delivered. -/
theorem flush_delivers_sent :
    ∃ s s', (Router.init [.splunk 50] 2).run sampleConfig [.emit sampleEvent, .put 0, .get 0, .send 0, .taskDone 0] =
        some s ∧
      s.run sampleConfig [.callFlush, .flushTransport, .flushReturn] = some s' ∧ s'.Delivered := by
  obtain ⟨s, hs, hemit, hflush, htr, hq, hh⟩ : ∃ s, (Router.init [.splunk 50] 2).run sampleConfig
        [.emit sampleEvent, .put 0, .get 0, .send 0, .taskDone 0] = some s ∧ s.emitting = [] ∧
      s.flush.inProgress = false ∧ (∃ s', s.run sampleConfig [.callFlush, .flushTransport, .flushReturn] = some s' ∧
        s'.flush = .returned) ∧ s.queue = [] ∧ s.workers = [none, none] :=
    ⟨_, rfl, rfl, rfl, ⟨_, rfl, rfl⟩, rfl, rfl⟩
  obtain ⟨s', hs', hret⟩ := htr
  have hsettled : s.Settled := .inr (.inl ⟨hq, by simp [hh]⟩)
  exact ⟨s, s', hs, hs', (flush_delivers_iff sampleConfig _ _ hs hemit hflush).2 hsettled _ _ (by decide) hs' hret⟩

/-- **`flush` returns before an event is delivered.**  A worker takes it off the queue after
the transport was visited: `flush` finds the queue empty and returns, nothing has been
sent, and once the worker goes on the event stays in the buffer. -/
theorem flush_leaves_event :
    ∃ s s' s'', (Router.init [.splunk 50] 2).run sampleConfig [.emit sampleEvent, .put 0] = some s ∧
      s.emitting = [] ∧ s.flush.inProgress = false ∧
      s.run sampleConfig [.callFlush, .flushTransport, .get 0, .flushReturn] = some s' ∧ s'.flush = .returned ∧
      s'.queue = [] ∧ ¬ s'.Delivered ∧ s'.transports.map Transport.sent = [[]] ∧
      s'.run sampleConfig [.send 0, .taskDone 0] = some s'' ∧
      s''.transports.map Transport.buffer = [[sampleEvent]] :=
  ⟨_, _, _, rfl, rfl, rfl, rfl, rfl, rfl, by decide, rfl, rfl, rfl⟩

end Siem
end ProvableAi
