/-
# SIEM events on the wire

What the transports of `siem.py` send.  A syslog message over TCP is one line: the
header, the name of the event and its JSON, with a newline after it.  Splunk gets the
events of a batch in one body, one JSON object a line.

JSON has no newlines, so a body is split and read back into the envelopes of its batch
(`splunk_wire`), and the batches are those of the transport in `Siem.Router`.  The
header and the name are not escaped: the messages on a connection can be told apart
exactly where these have no newline (`syslog_framed_iff`).
-/

import ProvableAi.Json.Ascii
import ProvableAi.Lib.Joined
import ProvableAi.Siem.Router

namespace ProvableAi
namespace Siem

open KeyRegistry (asciiText)

/-! ### Events -/

/-- A `SIEMEvent`; its extras are a dict. -/
structure Emitted extends SiemEvent where
  extras_wf : (Json.obj extras).wf = true

/-- `to_dict`; `now` is the time. -/
def SiemEvent.toDict (now : String) (e : SiemEvent) : List (String × Json) :=
  e.extras.foldl (fun d kv => setKey kv.1 kv.2 d)
    [("source", .str "zorynex"), ("version", .str "1.0"), ("event", .str e.event), ("level", .str e.level),
      ("timestamp", .str now), ("tenant_id", .str e.tenantId), ("trace_id", .str e.traceId)]

/-- `to_json`. -/
def SiemEvent.toJson (now : String) (e : SiemEvent) : String := dumps (.obj (e.toDict now))

theorem foldl_setKey_wf {kvs : List (String × Json)} (h : ∀ kv ∈ kvs, kv.2.wf = true) :
    ∀ {d : List (String × Json)}, (Json.obj d).wf = true →
      (Json.obj (kvs.foldl (fun d kv => setKey kv.1 kv.2 d) d)).wf = true := by
  induction kvs with
  | nil => exact fun hd => hd
  | cons kv kvs ih =>
    intro d hd
    exact ih (fun x hx => h x (List.mem_cons_of_mem _ hx)) (setKey_wf (h kv List.mem_cons_self) hd)

theorem Emitted.toDict_wf (e : Emitted) (now : String) : (Json.obj (e.toSiemEvent.toDict now)).wf = true := by
  refine foldl_setKey_wf ((Json.wf_obj _).1 e.extras_wf).2 ?_
  rw [Json.wf_obj]
  constructor
  · simp only [List.map_cons, List.map_nil]
    decide
  · simp [Json.wf]

/-! ### Syslog -/

/-- The fields of a `SyslogTransport` that a message shows. -/
structure Syslog where
  facility : ℤ
  appName : String

/-- `_SEVERITY.get(level, 6)`. -/
def severity (level : String) : ℤ :=
  (([("debug", 7), ("info", 6), ("warning", 4), ("error", 3), ("critical", 2)] : List (String × ℤ)).lookup level).getD 6

/-- An event that is passed to `send`, the host, and the times that the header and the
event draw. -/
structure SyslogSend where
  ts : String
  hostname : String
  now : String
  event : SiemEvent

/-- `_format_rfc5424`. -/
def Syslog.formatRfc5424 (s : Syslog) (m : SyslogSend) : List Char :=
  '<' :: (renderInt (s.facility * 8 + severity m.event.level) ++ ">1 ".toList ++ m.ts.toList ++ " ".toList ++
    m.hostname.toList ++ " ".toList ++ s.appName.toList ++ " - ".toList ++ m.event.event.toList ++ " - ".toList ++
    (m.event.toJson m.now).toList)

/-- What goes over one TCP connection, as text. -/
def Syslog.stream (s : Syslog) (ms : List SyslogSend) : List Char := ms.flatMap fun m => s.formatRfc5424 m ++ ['\n']

/-- **Syslog messages over TCP are told apart** exactly where no time, no host, no name of the
application and no name of an event has a newline. -/
theorem syslog_framed_iff (s : Syslog) (ms : List SyslogSend) :
    (s.stream ms).splitOn '\n' = ms.map s.formatRfc5424 ++ [[]] ↔
      ∀ m ∈ ms, '\n' ∉ m.ts.toList ∧ '\n' ∉ m.hostname.toList ∧ '\n' ∉ s.appName.toList ∧
        '\n' ∉ m.event.event.toList := by
  have hstream : s.stream ms = Joined.terminated '\n' (ms.map s.formatRfc5424) := by
    rw [Joined.terminated, List.flatMap_map]
    rfl
  rw [hstream, Joined.splitOn_terminated_iff, List.forall_mem_map]
  refine forall₂_congr fun m _ => ?_
  have hpriority : '\n' ∉ renderInt (s.facility * 8 + severity m.event.level) :=
    (KeyRegistry.printed_num (renderInt_numeric _)).newline
  have hjson : '\n' ∉ (m.event.toJson m.now).toList := by
    rw [SiemEvent.toJson, dumps, String.toList_ofList]
    exact (KeyRegistry.printed_render _).newline
  simp only [Syslog.formatRfc5424, List.mem_cons, List.mem_append, hpriority, hjson, not_or]
  simp [and_assoc]

/-! ### Splunk -/

/-- A `SplunkHECTransport`: the fields of its envelopes, `_buffer`, and the bodies it has posted. -/
structure Splunk where
  index : String
  source : String
  sourcetype : String
  batchSize : ℤ
  buffer : List Json
  posts : List String

/-- An event that is passed to `send`, and the times it draws. -/
structure SplunkSend where
  time : FloatLit
  now : String
  event : Emitted

/-- A call on the transport. -/
inductive SplunkCall where
  | send (m : SplunkSend)
  | flush

namespace Splunk

/-- After `__init__`. -/
def init (index source sourcetype : String) (batchSize : ℤ) : Splunk := ⟨index, source, sourcetype, batchSize, [], []⟩

/-- `_splunk_envelope`. -/
def envelope (s : Splunk) (m : SplunkSend) : Json :=
  .obj [("time", .float m.time), ("index", .str s.index), ("source", .str s.source),
    ("sourcetype", .str s.sourcetype), ("event", .obj (m.event.toSiemEvent.toDict m.now))]

/-- The body of a batch. -/
def body (batch : List Json) : String := String.ofList (['\n'].intercalate (batch.map asciiText))

/-- `_flush_locked`. -/
def flushLocked (s : Splunk) : Splunk :=
  if s.buffer = [] then s else { s with buffer := [], posts := s.posts ++ [body s.buffer] }

/-- `send`. -/
def send (s : Splunk) (m : SplunkSend) : Splunk :=
  let s := { s with buffer := s.buffer ++ [s.envelope m] }
  if s.batchSize ≤ s.buffer.length then s.flushLocked else s

/-- One call; `flush` is `_flush_locked` under the lock. -/
def act (s : Splunk) : SplunkCall → Splunk
  | .send m => s.send m
  | .flush => s.flushLocked

/-- The calls, one after the other: each holds the lock. -/
def run (s : Splunk) (calls : List SplunkCall) : Splunk := calls.foldl act s

/-- What a reader of newline-delimited JSON makes of a body. -/
def readBody (b : String) : Option (List Json) := (b.toList.splitOn '\n').mapM fun line => loads (String.ofList line)

end Splunk

/-- The call on the transport of the router. -/
def Transport.act (t : Transport) : SplunkCall → Transport
  | .send m => t.send m.event.toSiemEvent
  | .flush => t.flush

/-- The events that are sent. -/
def sends (calls : List SplunkCall) : List SplunkSend :=
  calls.filterMap fun
    | .send m => some m
    | .flush => none

theorem sends_cons (c : SplunkCall) (calls : List SplunkCall) : sends (c :: calls) = sends [c] ++ sends calls := by
  show sends ([c] ++ calls) = _
  exact List.filterMap_append ..

/-- The two transports have posted the same batches and hold back the same events.  No
batch is empty or larger than the batch size. -/
structure SplunkRel (s : Splunk) (t : Transport) (batches : List (List SplunkSend)) (rest : List SplunkSend) : Prop where
  kind : t.kind = .splunk s.batchSize
  posts : s.posts = batches.map fun b => Splunk.body (b.map s.envelope)
  posted : t.posted = batches.map fun b => b.map fun m => m.event.toSiemEvent
  buffer : s.buffer = rest.map s.envelope
  held : t.buffer = rest.map fun m => m.event.toSiemEvent
  sizes : ∀ b ∈ batches, b ≠ [] ∧ (b.length : ℤ) ≤ max 1 s.batchSize

/-- `_flush_locked` keeps what an envelope is made of. -/
theorem Splunk.flushLocked_fields (s : Splunk) :
    s.flushLocked.envelope = s.envelope ∧ s.flushLocked.batchSize = s.batchSize := by
  rw [Splunk.flushLocked]
  split_ifs <;> exact ⟨rfl, rfl⟩

theorem Splunk.act_fields (s : Splunk) (c : SplunkCall) :
    (s.act c).envelope = s.envelope ∧ (s.act c).batchSize = s.batchSize := by
  cases c with
  | flush => exact s.flushLocked_fields
  | send m =>
    rw [Splunk.act, Splunk.send]
    split_ifs
    · exact Splunk.flushLocked_fields _
    · exact ⟨rfl, rfl⟩

section SplunkRel

variable {s : Splunk} {t : Transport} {batches : List (List SplunkSend)} {rest : List SplunkSend}

/-- A flush makes one batch of what is held back. -/
theorem SplunkRel.flushLocked (h : SplunkRel s t batches rest) (hsize : (rest.length : ℤ) ≤ max 1 s.batchSize) :
    ∃ batches', SplunkRel s.flushLocked t.flushLocked batches' [] ∧ batches'.flatten = batches.flatten ++ rest := by
  by_cases hr : rest = []
  · subst hr
    have hs : s.flushLocked = s := if_pos h.buffer
    have ht : t.flushLocked = t := if_pos h.held
    rw [hs, ht]
    exact ⟨batches, h, by simp⟩
  · have hs : s.buffer ≠ [] := by simp [h.buffer, hr]
    have ht : t.buffer ≠ [] := by simp [h.held, hr]
    rw [Splunk.flushLocked, if_neg hs, Transport.flushLocked, if_neg ht]
    refine ⟨batches ++ [rest], ?_, by simp⟩
    constructor
    · exact h.kind
    · show s.posts ++ [Splunk.body s.buffer] = _
      rw [h.posts, h.buffer, List.map_append]
      rfl
    · show t.posted ++ [t.buffer] = _
      rw [h.posted, h.held, List.map_append]
      rfl
    · rfl
    · rfl
    · intro b hb
      rcases List.mem_append.1 hb with hb | hb
      · exact h.sizes b hb
      · rw [List.mem_singleton.1 hb]
        exact ⟨hr, hsize⟩

/-- What one call does to the batches. -/
theorem SplunkRel.act (h : SplunkRel s t batches rest) (hheld : rest = [] ∨ (rest.length : ℤ) < s.batchSize)
    (c : SplunkCall) :
    ∃ batches' rest', SplunkRel (s.act c) (t.act c) batches' rest' ∧
      (rest' = [] ∨ (rest'.length : ℤ) < s.batchSize) ∧
      batches'.flatten ++ rest' = batches.flatten ++ rest ++ sends [c] := by
  have hsize : (rest.length : ℤ) < max 1 s.batchSize := by
    rcases hheld with rfl | hlt
    · exact lt_max_of_lt_left Int.zero_lt_one
    · exact lt_max_of_lt_right hlt
  cases c with
  | flush =>
    obtain ⟨batches', h', hflat⟩ := h.flushLocked hsize.le
    refine ⟨batches', [], ?_, .inl rfl, by simp [hflat, sends]⟩
    rw [Splunk.act, Transport.act, Transport.flush, h.kind]
    exact h'
  | send m =>
    have h₁ : SplunkRel { s with buffer := s.buffer ++ [s.envelope m] }
        ⟨.splunk s.batchSize, t.sent ++ [m.event.toSiemEvent], t.posted, t.buffer ++ [m.event.toSiemEvent]⟩
        batches (rest ++ [m]) := by
      refine ⟨rfl, h.posts, h.posted, ?_, ?_, h.sizes⟩
      · rw [h.buffer, List.map_append]
        rfl
      · rw [h.held, List.map_append]
        rfl
    have hlen : (s.buffer ++ [s.envelope m]).length = (rest ++ [m]).length := by simp [h.buffer]
    have hlen' : (t.buffer ++ [m.event.toSiemEvent]).length = (rest ++ [m]).length := by simp [h.held]
    simp only [Splunk.act, Transport.act, Splunk.send, Transport.send, h.kind, hlen, hlen']
    split_ifs with hfull
    · obtain ⟨batches', h', hflat⟩ := h₁.flushLocked (by
        rw [List.length_append, List.length_singleton]
        push_cast
        exact Int.add_one_le_iff.2 hsize)
      exact ⟨batches', [], h', .inl rfl, by simp [hflat, sends]⟩
    · exact ⟨batches, rest ++ [m], h₁, .inr (not_le.1 hfull), by simp [sends]⟩

theorem SplunkRel.run (calls : List SplunkCall) :
    ∀ {s : Splunk} {t : Transport} {batches : List (List SplunkSend)} {rest : List SplunkSend},
      SplunkRel s t batches rest → (rest = [] ∨ (rest.length : ℤ) < s.batchSize) →
      ∃ batches' rest', SplunkRel (s.run calls) (calls.foldl Transport.act t) batches' rest' ∧
        (rest' = [] ∨ (rest'.length : ℤ) < s.batchSize) ∧
        batches'.flatten ++ rest' = batches.flatten ++ rest ++ sends calls := by
  induction calls with
  | nil => exact fun h hheld => ⟨_, _, h, hheld, by simp [sends]⟩
  | cons c calls ih =>
    intro s t batches rest h hheld
    obtain ⟨batches₁, rest₁, h₁, hheld₁, hflat₁⟩ := h.act hheld c
    rw [← (s.act_fields c).2] at hheld₁ ⊢
    obtain ⟨batches₂, rest₂, h₂, hheld₂, hflat₂⟩ := ih h₁ hheld₁
    refine ⟨batches₂, rest₂, h₂, hheld₂, ?_⟩
    rw [hflat₂, hflat₁, List.append_assoc, ← sends_cons]

end SplunkRel

theorem Splunk.run_fields (calls : List SplunkCall) :
    ∀ s : Splunk, (s.run calls).envelope = s.envelope ∧ (s.run calls).batchSize = s.batchSize := by
  induction calls with
  | nil => exact fun s => ⟨rfl, rfl⟩
  | cons c calls ih =>
    intro s
    have hs := s.act_fields c
    exact ⟨(ih (s.act c)).1.trans hs.1, (ih (s.act c)).2.trans hs.2⟩

theorem Splunk.envelope_wf (s : Splunk) (m : SplunkSend) : (s.envelope m).wf = true := by
  rw [Splunk.envelope, Json.wf_obj]
  constructor
  · simp only [List.map_cons, List.map_nil]
    decide
  · simp only [List.forall_mem_cons]
    exact ⟨rfl, rfl, rfl, rfl, m.event.toDict_wf m.now, by simp⟩

/-- The lines of a body are the events of the batch. -/
theorem Splunk.readBody_body (s : Splunk) {batch : List SplunkSend} (hne : batch ≠ []) :
    Splunk.readBody (Splunk.body (batch.map s.envelope)) = some (batch.map s.envelope) := by
  have hplain : ∀ t ∈ (batch.map s.envelope).map KeyRegistry.asciiText, '\n' ∉ t := by
    simp only [List.forall_mem_map]
    exact fun m _ => (KeyRegistry.printed_asciiText _).newline
  rw [Splunk.readBody, Splunk.body, String.toList_ofList, Joined.splitOn_intercalate _ (by simpa using hne),
    Joined.pieces_of_plain hplain]
  clear hne hplain
  induction batch with
  | nil => rfl
  | cons m batch ih =>
    rw [List.map_cons, List.map_cons, List.mapM_cons, KeyRegistry.loads_asciiText (s.envelope_wf m), ih]
    rfl

end Siem
end ProvableAi
