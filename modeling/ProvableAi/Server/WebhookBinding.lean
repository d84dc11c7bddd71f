/-
# What a signature of a webhook stands for

`_compute_hmac` joins three texts with full stops, and two of them may hold full
stops themselves: the receiver takes any nonce, and the body is any JSON.  The
sender's timestamp and nonce have none, and the receiver reads the timestamp with
`int`, which takes none.  So a signed text that is split in another way has a
longer nonce, and its body is what follows a full stop of the signed one.

The body of `sign_webhook` ends in the members `nonce` and `timestamp`.  What
follows a full stop before them is no JSON (`not_acceptsJson_suffix`), so under a
MAC whose tags are the signed ones every accepted delivery was signed as it is:
`accepted_signed`.
-/

import ProvableAi.Json.Reader
import ProvableAi.Lib.Joined
import ProvableAi.Server.Webhook

namespace ProvableAi

open Lockstep WebhookState

/-! ### Texts without a full stop -/

theorem dot_not_digit {c : Char} (h : c.isDigit = true) : c ≠ '.' := by
  rintro rfl
  exact absurd h (by decide)

theorem dot_not_mem_digitRun {cs : List Char} (h : digitRun cs = true) : '.' ∉ cs := by
  fun_induction digitRun cs with
  | case1 => cases h
  | case2 c => simpa using (dot_not_digit h).symm
  | case3 c r ih =>
    rw [Bool.and_eq_true] at h
    simp [(dot_not_digit h.1).symm, ih h.2]
  | case4 c r _ _ ih =>
    rw [Bool.and_eq_true] at h
    simp [(dot_not_digit h.1).symm, ih h.2]

theorem dot_mem_of_expDigits {cs : List Char} (h : '.' ∉ expDigits cs) : '.' ∉ cs := by
  revert h
  unfold expDigits
  split
  · exact fun h => by simpa using h
  · exact fun h => by simpa using h
  · exact id

/-- What is dropped around the text is white space. -/
theorem dot_not_mem_of_stripRight {cs : List Char} (h : '.' ∉ stripRight cs) : '.' ∉ cs := by
  intro hmem
  refine h ?_
  rw [stripRight, List.mem_reverse]
  rw [← List.mem_reverse, ← List.takeWhile_append_dropWhile (p := isAsciiSpace) (l := cs.reverse)] at hmem
  exact (List.mem_append.1 hmem).resolve_left fun hw => absurd (List.mem_takeWhile_imp hw) (by decide)

theorem dot_not_mem_of_dropWhile {cs : List Char} (h : '.' ∉ cs.dropWhile isAsciiSpace) : '.' ∉ cs := by
  intro hmem
  rw [← List.takeWhile_append_dropWhile (p := isAsciiSpace) (l := cs)] at hmem
  exact h ((List.mem_append.1 hmem).resolve_left fun hw => absurd (List.mem_takeWhile_imp hw) (by decide))

/-- **`int` takes no full stop.** -/
theorem dot_not_mem_of_pyInt {s : String} {n : ℤ} (h : pyInt s = some n) : '.' ∉ s.toList := by
  have hrun : digitRun (expDigits (intText s)) = true := by
    rw [pyInt] at h
    split at h
    · rename_i hrun
      exact (Bool.and_eq_true _ _ ▸ hrun).1
    · cases h
  have htext : '.' ∉ intText s := dot_mem_of_expDigits (dot_not_mem_digitRun hrun)
  have hmap := dot_not_mem_of_dropWhile (dot_not_mem_of_stripRight htext)
  exact fun hmem => hmap (List.mem_map.2 ⟨'.', hmem, by decide⟩)

theorem dot_not_mem_strInt (n : ℤ) : '.' ∉ (strInt n).toList := by
  have hdigits : '.' ∉ Nat.toDigits 10 n.natAbs := fun h =>
    dot_not_digit (List.all_eq_true.1 (toDigits_all n.natAbs) _ h) rfl
  rw [strInt, String.toList_ofList, renderInt]
  split_ifs
  · simpa using hdigits
  · exact hdigits

theorem dot_not_mem_toHex (bs : Bytes) : '.' ∉ (toHex bs).toList := by
  intro h
  exact absurd (List.all_eq_true.1 (toHex_lower bs) _ h) (by decide)

theorem dot_not_mem_uuid4Text (random : { bs : Bytes // bs.length = 16 }) : '.' ∉ (uuid4Text random).toList := by
  rw [uuid4Text, String.toList_intercalate]
  simp only [List.map_cons, List.map_nil, List.intercalate_cons_cons, List.intercalate_singleton, List.mem_append,
    dot_not_mem_toHex, or_false, false_or]
  decide

/-- A full stop in a string of JSON stands for itself. -/
theorem dot_not_mem_renderStr {s : String} (h : '.' ∉ s.toList) : '.' ∉ renderStr s := by
  have hchars : ∀ cs : List Char, '.' ∉ cs → '.' ∉ renderChars cs := by
    intro cs
    induction cs with
    | nil => simp [renderChars]
    | cons c cs ih =>
      intro hcs
      rw [List.mem_cons, not_or] at hcs
      rw [renderChars, List.mem_append, not_or]
      refine ⟨?_, ih hcs.2⟩
      have hhex : ∀ n < 16, '.' ≠ hexDigit n := by decide
      unfold escapeChar
      split_ifs
      · decide
      · decide
      · decide
      · decide
      · decide
      · decide
      · decide
      · simp [hhex (c.toNat / 16) (by omega), hhex (c.toNat % 16) (by omega)]
      · simpa using hcs.1
  rw [renderStr, List.mem_cons, not_or]
  exact ⟨by decide, hchars _ h⟩

/-! ### The two ends of a signed body -/

/-- The body up to the member `nonce`. -/
def envelopeHead (eventType : String) (data : List (String × PyData)) : List Char :=
  '{' :: (PyData.memberText ("data", (PyData.dict data).dump) ++
    ',' :: PyData.memberText ("event", (PyData.str eventType).dump))

/-- The rest of the body. -/
def envelopeTail (ts : ℤ) (nonce : String) : List Char :=
  ',' :: (PyData.memberText ("nonce", (PyData.str nonce).dump) ++
    ',' :: (PyData.memberText ("timestamp", (PyData.int ts).dump) ++ ['}']))

variable {eventType nonce : String} {ts : ℤ} {data : List (String × PyData)}

theorem dump_envelope : (webhookEnvelope eventType ts nonce data).dump = envelopeHead eventType data ++ envelopeTail ts nonce := by
  have hsort : Json.sortKeys ([("event", .str eventType), ("timestamp", .int ts), ("nonce", .str nonce),
      ("data", .dict data)].map fun kv : String × PyData => (kv.1, kv.2.dump)) =
      [("data", (PyData.dict data).dump), ("event", (PyData.str eventType).dump), ("nonce", (PyData.str nonce).dump),
        ("timestamp", (PyData.int ts).dump)] := by
    refine Json.sortKeys_eq_of_perm ?_ ?_
    · simp only [List.map_cons, List.map_nil]
      grind
    · simp only [List.map_cons, List.map_nil]
      decide
  rw [webhookEnvelope, PyData.dump_dict, hsort]
  simp [envelopeHead, envelopeTail, commaSep]

theorem closed_envelopeHead : LexState.Closed (envelopeHead eventType data) := by
  have hdata := LexState.closed_memberText (m := ("data", (PyData.dict data).dump)) (LexState.closed_dump _)
  have hevent := LexState.closed_memberText (m := ("event", (PyData.str eventType).dump)) (LexState.closed_dump _)
  exact .cons (by decide) (hdata.append (.cons (by decide) hevent))

theorem dot_not_mem_envelopeTail (h : '.' ∉ nonce.toList) : '.' ∉ envelopeTail ts nonce := by
  have hint := dot_not_mem_strInt ts
  rw [strInt, String.toList_ofList] at hint
  have hnonce := dot_not_mem_renderStr h
  have hkey : '.' ∉ renderStr "nonce" ∧ '.' ∉ renderStr "timestamp" := by decide
  simp [envelopeTail, PyData.memberText, PyData.dump, hint, hnonce, hkey]

/-- Read from inside a string, the key `nonce` stands outside the strings, where no JSON has it. -/
theorem run_envelopeTail : LexState.run .inStr (envelopeTail ts nonce) = none := by
  have hkey : renderStr "nonce" = ['"', 'n', 'o', 'n', 'c', 'e', '"'] := by decide
  rw [envelopeTail, PyData.memberText, hkey]
  rfl

theorem quote_mem_envelopeTail : '"' ∈ envelopeTail ts nonce := by
  simp [envelopeTail, PyData.memberText, renderStr]

/-- **What follows a full stop of a signed body is no JSON.** -/
theorem not_acceptsJson_envelope {x rest : List Char} (hnonce : '.' ∉ nonce.toList)
    (h : (webhookEnvelope eventType ts nonce data).dump = x ++ '.' :: rest) : acceptsJson (String.ofList rest) = false := by
  rw [dump_envelope] at h
  exact LexState.not_acceptsJson_suffix closed_envelopeHead (dot_not_mem_envelopeTail hnonce) quote_mem_envelopeTail
    run_envelopeTail h

/-! ### The signed text is split in one way -/

/-- The text that is signed, of a delivery. -/
def WebhookDelivery.payload (d : WebhookDelivery) : String := webhookPayload d.timestamp d.nonce d.body

theorem toList_payload (d : WebhookDelivery) :
    d.payload.toList = d.timestamp.toList ++ '.' :: (d.nonce.toList ++ '.' :: d.body.toList) := by
  rw [WebhookDelivery.payload, webhookPayload]
  simp

/-- **A signed text is accepted as the delivery it was signed for**, and as no other. -/
theorem eq_of_payload {secret : Bytes} {sent : ℚ} {random : { bs : Bytes // bs.length = 16 }} {d : WebhookDelivery}
    (hpayload : (signWebhook secret sent random eventType data).delivery.payload = d.payload) {n : ℤ}
    (hts : pyInt d.timestamp = some n) (hjson : acceptsJson d.body = true) :
    d = (signWebhook secret sent random eventType data).delivery := by
  have h := congrArg String.toList hpayload
  rw [toList_payload, toList_payload, SignedWebhookPayload.delivery] at h
  simp only [signWebhook_timestamp, signWebhook_nonce, signWebhook_body, String.toList_ofList] at h
  rcases Joined.first_eq_or_extends (dot_not_mem_strInt _) h with ⟨htime, h⟩ | ⟨c, htime, -⟩
  · rcases Joined.first_eq_or_extends (dot_not_mem_uuid4Text random) h with ⟨hnonce, hbody⟩ | ⟨c, -, hbody⟩
    · rw [SignedWebhookPayload.delivery, signWebhook_timestamp, signWebhook_nonce, signWebhook_body, hbody,
        String.ofList_toList, String.toList_inj.1 htime, String.toList_inj.1 hnonce]
    · -- a longer nonce takes the head of the body
      have hno := not_acceptsJson_envelope (dot_not_mem_uuid4Text random) hbody
      rw [String.ofList_toList, hjson] at hno
      cases hno
  · refine absurd ?_ (dot_not_mem_of_pyInt hts)
    rw [htime]
    simp

/-! ### Accepted deliveries were signed -/

/-- The MAC is ideal: a request carries the tag of a text only if the text was signed. -/
def Unforged (cfg : WebhookConfig) (s : WebhookState) : WebhookEvent → Prop
  | .sign .. => True
  | .receive _ _ r => ∀ body, decodeUtf8 r.body = some body →
      r.signature = signatureHeader cfg.secret ⟨r.timestamp, r.nonce, body⟩ →
      ∃ d ∈ s.signed, d.payload = webhookPayload r.timestamp r.nonce body

/-- What was signed is what `sign_webhook` returned, and what was accepted was signed. -/
structure Authentic (cfg : WebhookConfig) (s : WebhookState) : Prop where
  signed : ∀ d ∈ s.signed, ∃ sent random eventType data,
    d = (signWebhook cfg.secret sent random eventType data).delivery
  accepted : ∀ a ∈ s.accepted, a.delivery ∈ s.signed

theorem Authentic.init (cfg : WebhookConfig) : Authentic cfg .init where
  signed _ h := by cases h
  accepted _ h := by cases h

theorem Authentic.step {cfg : WebhookConfig} {s : WebhookState} {e : WebhookEvent} (h : Authentic cfg s)
    (hmac : Unforged cfg s e) : Authentic cfg (s.step cfg e).2 := by
  cases e with
  | sign now random eventType data =>
    refine ⟨fun d hd => ?_, fun a ha => List.mem_append_left _ (h.accepted a ha)⟩
    rcases List.mem_append.1 hd with hd | hd
    · exact h.signed d hd
    · exact ⟨now, random, eventType, data, List.mem_singleton.1 hd⟩
  | receive now later r =>
    rcases step_receive cfg s now later r with ⟨body, kept, hv, hs⟩ | ⟨e, kept, -, hs⟩
    · rw [hs]
      refine ⟨h.signed, fun a ha => ?_⟩
      rcases List.mem_append.1 ha with ha | ha
      · exact h.accepted a ha
      · obtain rfl := List.mem_singleton.1 ha
        obtain ⟨-, ⟨n, hn, -⟩, -, hauth, -⟩ := verifyWebhookRequest_ok_iff.1 hv
        obtain ⟨hbody, hsig, hjson⟩ := authenticate_ok_iff.1 hauth
        obtain ⟨d, hd, hpayload⟩ := hmac body hbody hsig
        obtain ⟨sent, random, eventType, data, rfl⟩ := h.signed d hd
        have heq : (⟨r.timestamp, r.nonce, body⟩ : WebhookDelivery) = _ := eq_of_payload hpayload hn hjson
        rw [← heq] at hd
        exact hd
    · rw [hs]
      exact ⟨h.signed, h.accepted⟩

/-- **Every accepted delivery was signed as it is**, under an ideal MAC. -/
theorem accepted_signed {cfg : WebhookConfig} {evs : List WebhookEvent}
    (hmac : Along (WebhookState.step cfg) (Unforged cfg) .init evs) :
    ∀ a ∈ (final (WebhookState.step cfg) .init evs).accepted,
      a.delivery ∈ (final (WebhookState.step cfg) .init evs).signed :=
  (Along.invariant (fun _ _ h hok => h.step hok) (Authentic.init cfg) hmac).accepted

/-- A signed delivery that arrives carries the tag of a signed text. -/
theorem unforged_of_mem {cfg : WebhookConfig} {s : WebhookState} {p : SignedWebhookPayload} (h : p.delivery ∈ s.signed)
    (now later : ℚ) : Unforged cfg s (.receive now later p.request) := by
  intro body hbody _
  rw [SignedWebhookPayload.request_body, decodeUtf8_utf8] at hbody
  obtain rfl := Option.some.inj hbody
  exact ⟨p.delivery, h, rfl⟩

theorem signed_receive {cfg : WebhookConfig} {s : WebhookState} (now later : ℚ) (r : WebhookRequest) :
    (s.step cfg (.receive now later r)).2.signed = s.signed := by
  rcases step_receive cfg s now later r with ⟨body, kept, -, hs⟩ | ⟨e, kept, -, hs⟩ <;> rw [hs]

/-- The hypothesis is satisfiable: a delivery that arrives is the one that was signed. -/
theorem accepted_signed_edge : Along (WebhookState.step edgeConfig) (Unforged edgeConfig) .init edgeRun ∧
    ∀ a ∈ (final (WebhookState.step edgeConfig) .init edgeRun).accepted,
      a.delivery ∈ (final (WebhookState.step edgeConfig) .init edgeRun).signed := by
  have hmac : Along (WebhookState.step edgeConfig) (Unforged edgeConfig) .init edgeRun := by
    have hsigned : edgePayload.delivery ∈
        (WebhookState.init.step edgeConfig (.sign 1000 edgeRandom "decision.recorded" [])).2.signed :=
      List.mem_singleton.2 rfl
    refine ⟨trivial, unforged_of_mem hsigned 700 700, unforged_of_mem ?_ 1300 1300, trivial⟩
    rw [signed_receive]
    exact hsigned
  exact ⟨hmac, accepted_signed hmac⟩

end ProvableAi
