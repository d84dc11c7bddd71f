/-
# Signed webhooks and replay protection

`server/webhook.py`: `sign_webhook` signs a body with HMAC-SHA256 over
`timestamp.nonce.body`, and `verify_webhook_request` accepts a request whose
timestamp is within the tolerance, whose nonce the store does not hold and whose
signature matches.  Two readings of the clock belong to a request, the one the
timestamp is held against and the later one of `check_and_store`; between them
the event loop runs nothing else, and what follows the store reads no state.
Readings are exact.

A nonce is kept for twice the tolerance and dropped once its expiry is reached,
while a timestamp is accepted up to the tolerance inclusively, on both sides.  So
a delivery that was accepted as early as possible is accepted again at the other
end of the window: `replays_iff` says when a run repeats a delivery.
-/

import ProvableAi.Json.Scanner
import ProvableAi.Lib.Lockstep
import ProvableAi.Server.Endpoints
import Mathlib.Algebra.Order.Field.Rat
import Mathlib.Data.Rat.Floor
import Mathlib.Tactic.Linarith

namespace ProvableAi

/-! ### `int(s)` -/

/-- The value of a decimal digit of any script. -/
def decimalDigit (c : Char) : Option ℕ :=
  (decimalZeros.find? fun z => z ≤ c.toNat && c.toNat ≤ z + 9).map fun z => c.toNat - z

/-- `_PyUnicode_TransformDecimalAndSpaceToASCII`. -/
def asciiOf (c : Char) : Char :=
  if c.toNat < 127 then c
  else if isSpace c then ' '
  else match decimalDigit c with
    | some d => Nat.digitChar d
    | none => '?'

/-- Digits with single underscores between them. -/
def digitRun : List Char → Bool
  | [] => false
  | [c] => c.isDigit
  | c :: '_' :: r => c.isDigit && digitRun r
  | c :: r => c.isDigit && digitRun r

/-- The text `int` reads: without the white space around it. -/
def intText (s : String) : List Char := stripRight ((s.toList.map asciiOf).dropWhile isAsciiSpace)

/-- `int(s)`; `none` where it raises `ValueError`, as it does for more than 4300 digits. -/
def pyInt (s : String) : Option ℤ :=
  let ds := expDigits (intText s)
  if digitRun ds && decide ((ds.filter Char.isDigit).length ≤ 4300) then
    let n : ℕ := Nat.ofDigitChars 10 (ds.filter Char.isDigit) 0
    some (if (intText s).head? = some '-' then -n else n)
  else none

/-- What `int` takes beyond digits. -/
example : pyInt " -1_000 " = some (-1000) ∧ pyInt "٣5" = some 35 ∧ pyInt "1__0" = none ∧ pyInt "1.0" = none ∧
    pyInt "" = none := by decide +kernel

/-! ### The nonce store -/

/-- `_NonceStore._store`: the nonces with their expiry, in the order they were stored. -/
abbrev NonceStore := List (String × ℚ)

namespace NonceStore

/-- The entries that are not evicted. -/
def live (store : NonceStore) (now : ℚ) : NonceStore := store.filter fun e => now < e.2

/-- `check_and_store`, with the tolerance of the module. -/
def checkAndStore (tolerance : ℤ) (store : NonceStore) (now : ℚ) (nonce : String) (ttl : Option ℤ) : Bool × NonceStore :=
  let kept := store.live now
  if (kept.lookup nonce).isSome then (false, kept)
  else (true, kept ++ [(nonce, now + (ttl.getD (tolerance * 2) : ℤ))])

end NonceStore

/-! ### HMAC -/

/-- `hmac.new(key, message, hashlib.sha256).digest()`. -/
def hmacSha256 (key message : Bytes) : Bytes :=
  let key := if 64 < key.length then sha256 key else key
  let padded := key ++ List.replicate (64 - key.length) 0
  sha256 (padded.map (· ^^^ 0x5c) ++ sha256 (padded.map (· ^^^ 0x36) ++ message))

/-- The text that is signed. -/
def webhookPayload (timestamp nonce body : String) : String := timestamp ++ "." ++ nonce ++ "." ++ body

/-- `_compute_hmac`, under the secret. -/
def computeHmac (secret : Bytes) (timestamp nonce body : String) : String :=
  toHex (hmacSha256 secret (utf8 (webhookPayload timestamp nonce body)))

/-- `_SECRET`, from the value of `ZORYNEX_WEBHOOK_SECRET`. -/
def webhookSecret (raw : String) : Bytes :=
  utf8 (if raw = "" then "dev-only-insecure-secret-change-in-production" else raw)

/-! ### Outbound signing -/

/-- The bytes of `uuid4`, from sixteen random ones. -/
def uuid4Bytes (random : Bytes) : Bytes :=
  (random.modify 6 fun b => b &&& 0x0f ||| 0x40).modify 8 fun b => b &&& 0x3f ||| 0x80

/-- `str(uuid.uuid4())`, from the sixteen random bytes. -/
def uuid4Text (random : { bs : Bytes // bs.length = 16 }) : String :=
  let bs := uuid4Bytes random
  "-".intercalate [toHex (bs.take 4), toHex ((bs.drop 4).take 2), toHex ((bs.drop 6).take 2),
    toHex ((bs.drop 8).take 2), toHex (bs.drop 10)]

/-- `str(n)` of an integer. -/
def strInt (n : ℤ) : String := String.ofList (renderInt n)

/-- `SignedWebhookPayload`. -/
structure SignedWebhookPayload where
  body : String
  headers : List (String × String)

/-- The envelope of `sign_webhook`. -/
def webhookEnvelope (eventType : String) (ts : ℤ) (nonce : String) (data : List (String × PyData)) : PyData :=
  .dict [("event", .str eventType), ("timestamp", .int ts), ("nonce", .str nonce), ("data", .dict data)]

/-- `sign_webhook`, at a reading of the clock and with the random bytes of its nonce. -/
def signWebhook (secret : Bytes) (now : ℚ) (random : { bs : Bytes // bs.length = 16 }) (eventType : String)
    (data : List (String × PyData)) : SignedWebhookPayload :=
  let ts := now.num.tdiv now.den
  let nonce := uuid4Text random
  let body := String.ofList (webhookEnvelope eventType ts nonce data).dump
  let signature := computeHmac secret (strInt ts) nonce body
  { body
    headers :=
      [("Content-Type", "application/json"), ("X-Zorynex-Signature", "sha256=" ++ signature),
       ("X-Zorynex-Timestamp", strInt ts), ("X-Zorynex-Nonce", nonce), ("X-Zorynex-Event", eventType)] }

/-! ### Inbound verification -/

/-- What `verify_webhook_request` reads of a request. -/
structure WebhookRequest where
  headers : List (String × String)
  body : Bytes

/-- `request.headers.get(name, "")`. -/
def WebhookRequest.header (r : WebhookRequest) (name : String) : String := (r.headers.lookup name).getD ""

namespace WebhookRequest

variable (r : WebhookRequest)

def signature : String := r.header "X-Zorynex-Signature"
def timestamp : String := r.header "X-Zorynex-Timestamp"
def nonce : String := r.header "X-Zorynex-Nonce"

end WebhookRequest

/-- The request that sends a signed payload. -/
def SignedWebhookPayload.request (p : SignedWebhookPayload) : WebhookRequest := ⟨p.headers, utf8 p.body⟩

/-- `body_bytes.decode("utf-8")`; `none` where it raises `UnicodeDecodeError`. -/
def decodeUtf8 (bs : Bytes) : Option String := String.fromUTF8? ⟨bs.toArray⟩

/-- Why a request is not accepted. -/
inductive WebhookError where
  | missingHeaders
  | invalidTimestamp
  | timestampExpired (age tolerance : ℤ)
  | replayDetected (nonce : String)
  | invalidSigFormat
  | signatureInvalid
  /-- `json.loads` refused the text. -/
  | invalidJson (text : String)
  /-- The body is no UTF-8: an exception that no handler of the endpoint catches. -/
  | undecodable
  deriving DecidableEq

/-- The response, given the trace id and what the decoder says of a text it refuses. -/
def WebhookError.response (traceId : String) (decodeError : String → String) : WebhookError → Response
  | missingHeaders => .failed 401 "WEBHOOK_MISSING_HEADERS"
      "Signed webhooks require X-Zorynex-Signature, X-Zorynex-Timestamp, and X-Zorynex-Nonce headers." []
  | invalidTimestamp => .failed 401 "WEBHOOK_INVALID_TIMESTAMP" "X-Zorynex-Timestamp must be a Unix epoch integer." []
  | timestampExpired age tolerance => .failed 401 "WEBHOOK_TIMESTAMP_EXPIRED"
      ("Webhook is " ++ strInt age ++ "s old. Maximum: " ++ strInt tolerance ++ "s.")
      [("age_s", .int age), ("tolerance", .int tolerance)]
  | replayDetected nonce => .failed 401 "WEBHOOK_REPLAY_DETECTED"
      "This nonce has been seen before. Replay attack blocked." [("nonce", .str nonce)]
  | invalidSigFormat => .failed 401 "WEBHOOK_INVALID_SIG_FORMAT" "X-Zorynex-Signature must start with 'sha256='." []
  | signatureInvalid => .failed 401 "WEBHOOK_SIGNATURE_INVALID"
      "HMAC-SHA256 signature does not match. Verify ZORYNEX_WEBHOOK_SECRET matches the sender's secret." []
  | invalidJson text => .failed 400 "WEBHOOK_INVALID_JSON" (decodeError text) []
  | undecodable => .internalError traceId

/-- `TIMESTAMP_TOLERANCE_S` and `_SECRET`. -/
structure WebhookConfig where
  tolerance : ℤ
  secret : Bytes

/-- Step 4 and what follows it: the text of the body, whose value is returned. -/
def authenticate (secret : Bytes) (r : WebhookRequest) : Except WebhookError String :=
  match decodeUtf8 r.body with
  | none => .error .undecodable
  | some body =>
    if ¬ "sha256=".toList <+: r.signature.toList then .error .invalidSigFormat
    else if String.ofList (r.signature.toList.drop 7) ≠ computeHmac secret r.timestamp r.nonce body then
      .error .signatureInvalid
    else if acceptsJson body then .ok body
    else .error (.invalidJson body)

/-- `verify_webhook_request`: `now` is the reading the timestamp is held against, `later`
that of `check_and_store`. -/
def verifyWebhookRequest (cfg : WebhookConfig) (store : NonceStore) (now later : ℚ) (r : WebhookRequest) :
    Except WebhookError String × NonceStore :=
  if r.signature = "" ∨ r.timestamp = "" ∨ r.nonce = "" then (.error .missingHeaders, store)
  else match pyInt r.timestamp with
    | none => (.error .invalidTimestamp, store)
    | some ts =>
      let age := |now - ts|
      if cfg.tolerance < age then (.error (.timestampExpired ⌊age⌋ cfg.tolerance), store)
      else match store.checkAndStore cfg.tolerance later r.nonce none with
        | (false, kept) => (.error (.replayDetected r.nonce), kept)
        | (true, kept) => (authenticate cfg.secret r, kept)

/-! ### Runs -/

/-- What a delivery is told by. -/
structure WebhookDelivery where
  timestamp : String
  nonce : String
  body : String
  deriving DecidableEq

/-- The delivery of a signed payload. -/
def SignedWebhookPayload.delivery (p : SignedWebhookPayload) : WebhookDelivery :=
  ⟨p.request.timestamp, p.request.nonce, p.body⟩

inductive WebhookEvent where
  /-- A sender calls `sign_webhook`. -/
  | sign (now : ℚ) (random : { bs : Bytes // bs.length = 16 }) (eventType : String) (data : List (String × PyData))
  /-- A request arrives. -/
  | receive (now later : ℚ) (r : WebhookRequest)

/-- The readings of the receiver's clock, in order. -/
def WebhookEvent.readings : WebhookEvent → List ℚ
  | sign .. => []
  | receive now later _ => [now, later]

/-- The clock of the receiver never goes back. -/
def WebhookClock (evs : List WebhookEvent) : Prop := (evs.flatMap (·.readings)).Pairwise (· ≤ ·)

/-- A delivery that was accepted, with the reading of `check_and_store`. -/
structure WebhookAcceptance where
  later : ℚ
  delivery : WebhookDelivery

/-- The nonce store of the process, the deliveries that were signed with the secret and
the ones that were accepted. -/
structure WebhookState where
  store : NonceStore
  signed : List WebhookDelivery
  accepted : List WebhookAcceptance

namespace WebhookState

/-- A process that has just started. -/
def init : WebhookState := ⟨[], [], []⟩

/-- One event, and the answer where it is a request. -/
def step (cfg : WebhookConfig) (s : WebhookState) : WebhookEvent → Option (Except WebhookError String) × WebhookState
  | .sign now random eventType data =>
    (none, { s with signed := s.signed ++ [(signWebhook cfg.secret now random eventType data).delivery] })
  | .receive now later r =>
    match verifyWebhookRequest cfg s.store now later r with
    | (.ok body, store) =>
      (some (.ok body), { s with store, accepted := s.accepted ++ [⟨later, r.timestamp, r.nonce, body⟩] })
    | (.error e, store) => (some (.error e), { s with store })

/-- The deliveries that were accepted, in order. -/
def deliveries (s : WebhookState) : List WebhookDelivery := s.accepted.map (·.delivery)

end WebhookState

/-! ### When a request is accepted -/

/-- The expiry of a nonce that is stored at a reading. -/
def WebhookConfig.expiry (cfg : WebhookConfig) (later : ℚ) : ℚ := later + (cfg.tolerance * 2 : ℤ)

/-- A timestamp within the tolerance of a reading. -/
def Timely (cfg : WebhookConfig) (now : ℚ) (timestamp : String) : Prop :=
  ∃ ts, pyInt timestamp = some ts ∧ |now - ts| ≤ cfg.tolerance

/-- Every entry of the nonce is past its expiry. -/
def NonceStore.Fresh (store : NonceStore) (later : ℚ) (nonce : String) : Prop :=
  ∀ e ∈ store, e.1 = nonce → e.2 ≤ later

/-- The signature header of a delivery. -/
def signatureHeader (secret : Bytes) (d : WebhookDelivery) : String :=
  "sha256=" ++ computeHmac secret d.timestamp d.nonce d.body

section

variable {cfg : WebhookConfig} {store kept : NonceStore} {now later : ℚ} {r : WebhookRequest} {body : String}

theorem eq_sha256_append_iff {s tag : String} :
    s = "sha256=" ++ tag ↔ "sha256=".toList <+: s.toList ∧ String.ofList (s.toList.drop 7) = tag := by
  have hlen : "sha256=".toList.length = 7 := by decide
  constructor
  · rintro rfl
    rw [String.toList_append, List.drop_left' hlen, String.ofList_toList]
    exact ⟨List.prefix_append .., rfl⟩
  · rintro ⟨⟨t, ht⟩, rfl⟩
    rw [← String.toList_inj, String.toList_append, ← ht, List.drop_left' hlen]
    exact congrArg _ String.toList_ofList.symm

/-- Step 4 passes for the signature of the delivery and a body that is JSON. -/
theorem authenticate_ok_iff {secret : Bytes} : authenticate secret r = .ok body ↔
    decodeUtf8 r.body = some body ∧ r.signature = signatureHeader secret ⟨r.timestamp, r.nonce, body⟩ ∧
      acceptsJson body = true := by
  rw [authenticate]
  cases decodeUtf8 r.body with
  | none => simp
  | some b =>
    simp only [Option.some.injEq, signatureHeader, eq_sha256_append_iff]
    split_ifs with hpre htag hjson
    · refine iff_of_false nofun ?_
      rintro ⟨rfl, ⟨-, h⟩, -⟩
      exact htag h
    · simp only [Except.ok.injEq]
      refine ⟨?_, fun h => h.1⟩
      rintro rfl
      exact ⟨rfl, ⟨hpre, not_not.1 htag⟩, hjson⟩
    · refine iff_of_false nofun ?_
      rintro ⟨rfl, -, h⟩
      exact hjson h
    · refine iff_of_false nofun ?_
      rintro ⟨-, ⟨h, -⟩, -⟩
      exact hpre h

theorem mem_live {e : String × ℚ} : e ∈ store.live later ↔ e ∈ store ∧ later < e.2 := by
  simp [NonceStore.live]

/-- The nonce is looked up among the entries that are kept. -/
theorem lookup_live {nonce : String} : ((store.live later).lookup nonce).isSome = false ↔ store.Fresh later nonce := by
  rw [← Bool.not_eq_true, Json.lookup_isSome_iff, NonceStore.Fresh]
  simp only [List.mem_map, mem_live, not_exists, not_and]
  refine forall_congr' fun e => ⟨fun h he hn => ?_, fun h he hn => ?_⟩
  · exact not_lt.1 fun hl => h ⟨he, hl⟩ hn
  · exact (h he.1 hn).not_gt he.2

/-- What `check_and_store` does with a nonce that is not held, and with one that is. -/
theorem checkAndStore_eq {nonce : String} : store.checkAndStore cfg.tolerance later nonce none =
    if ((store.live later).lookup nonce).isSome then (false, store.live later)
    else (true, store.live later ++ [(nonce, cfg.expiry later)]) := rfl

/-- **When a request is accepted**, and the store after it. -/
theorem verifyWebhookRequest_ok_iff : verifyWebhookRequest cfg store now later r = (.ok body, kept) ↔
    (r.signature ≠ "" ∧ r.timestamp ≠ "" ∧ r.nonce ≠ "") ∧ Timely cfg now r.timestamp ∧
      store.Fresh later r.nonce ∧ authenticate cfg.secret r = .ok body ∧
      kept = store.live later ++ [(r.nonce, cfg.expiry later)] := by
  rw [verifyWebhookRequest, Timely, ← lookup_live]
  split_ifs with hheaders
  · refine iff_of_false (by simp) fun h => ?_
    exact hheaders.elim h.1.1 fun hrest => hrest.elim h.1.2.1 h.1.2.2
  · cases pyInt r.timestamp with
    | none => simp
    | some ts =>
      simp only [checkAndStore_eq, Option.some.injEq, exists_eq_left']
      split_ifs with hage hseen
      · refine iff_of_false (by simp) fun h => ?_
        exact (h.2.1.trans_lt hage).false
      · refine iff_of_false (by simp) fun h => ?_
        simp [hseen] at h
      · simp only [Prod.mk.injEq, not_or] at hheaders ⊢
        simp only [Bool.not_eq_true] at hseen
        simp only [hheaders, not_lt.1 hage, hseen, ne_eq, not_false_eq_true, and_self, true_and, eq_comm]

/-- No answer drops an entry before its expiry. -/
theorem mem_verifyWebhookRequest {e : String × ℚ} (he : e ∈ store) (hlive : later < e.2) :
    e ∈ (verifyWebhookRequest cfg store now later r).2 := by
  have hkept := mem_live.2 ⟨he, hlive⟩
  rw [verifyWebhookRequest]
  split_ifs with hheaders
  · exact he
  · cases pyInt r.timestamp with
    | none => exact he
    | some ts =>
      simp only [checkAndStore_eq]
      split_ifs with hage hseen
      · exact he
      · exact hkept
      · exact List.mem_append_left _ hkept

end

/-! ### A genuine delivery -/

theorem decodeUtf8_utf8 (s : String) : decodeUtf8 (utf8 s) = some s := by
  have hbytes : (⟨(utf8 s).toArray⟩ : ByteArray) = s.toByteArray := by
    rw [utf8, Array.toArray_toList]
  rw [decodeUtf8, hbytes, String.fromUTF8?, dif_pos s.isValidUTF8]
  exact congrArg some (String.toByteArray_inj.1 rfl)

theorem strInt_ne_empty (n : ℤ) : strInt n ≠ "" := by
  intro h
  have h := congrArg String.toList h
  rw [strInt, String.toList_ofList] at h
  exact renderInt_ne_nil n h

theorem uuid4Text_ne_empty (random : { bs : Bytes // bs.length = 16 }) : uuid4Text random ≠ "" := by
  intro h
  have h := congrArg String.toList h
  rw [uuid4Text, String.toList_intercalate] at h
  simp [List.intercalate] at h

section

variable {cfg : WebhookConfig} {store : NonceStore} {now later : ℚ} (sent : ℚ) (random : { bs : Bytes // bs.length = 16 })
  (eventType : String) (data : List (String × PyData))

/-! What a signed payload sends. -/

theorem SignedWebhookPayload.request_body (p : SignedWebhookPayload) : p.request.body = utf8 p.body := rfl

theorem signWebhook_timestamp (secret : Bytes) : (signWebhook secret sent random eventType data).request.timestamp =
    strInt (sent.num.tdiv sent.den) := by
  simp [WebhookRequest.timestamp, WebhookRequest.header, SignedWebhookPayload.request, signWebhook, List.lookup_cons]

theorem signWebhook_nonce (secret : Bytes) :
    (signWebhook secret sent random eventType data).request.nonce = uuid4Text random := by
  simp [WebhookRequest.nonce, WebhookRequest.header, SignedWebhookPayload.request, signWebhook, List.lookup_cons]

theorem signWebhook_body (secret : Bytes) : (signWebhook secret sent random eventType data).body =
    String.ofList (webhookEnvelope eventType (sent.num.tdiv sent.den) (uuid4Text random) data).dump := rfl

theorem signWebhook_signature (secret : Bytes) : (signWebhook secret sent random eventType data).request.signature =
    signatureHeader secret (signWebhook secret sent random eventType data).delivery := by
  rw [signatureHeader, SignedWebhookPayload.delivery, signWebhook_timestamp, signWebhook_nonce]
  simp [WebhookRequest.signature, WebhookRequest.header, SignedWebhookPayload.request, signWebhook, List.lookup_cons]

/-- **A genuine delivery is accepted** within the tolerance while its nonce is fresh. -/
theorem verify_signWebhook
    (htimely : Timely cfg now (strInt (sent.num.tdiv sent.den))) (hfresh : store.Fresh later (uuid4Text random)) :
    verifyWebhookRequest cfg store now later (signWebhook cfg.secret sent random eventType data).request =
      (.ok (signWebhook cfg.secret sent random eventType data).body,
        store.live later ++ [(uuid4Text random, cfg.expiry later)]) := by
  have hsig := signWebhook_signature sent random eventType data cfg.secret
  have hts := signWebhook_timestamp sent random eventType data cfg.secret
  have hn := signWebhook_nonce sent random eventType data cfg.secret
  refine verifyWebhookRequest_ok_iff.2 ⟨⟨?_, ?_, ?_⟩, ?_, ?_, ?_, by rw [hn]⟩
  · rw [hsig, signatureHeader]
    intro hempty
    simpa using congrArg String.length hempty
  · rw [hts]
    exact strInt_ne_empty _
  · rw [hn]
    exact uuid4Text_ne_empty random
  · rw [hts]
    exact htimely
  · rw [hn]
    exact hfresh
  · have hbody := decodeUtf8_utf8 (signWebhook cfg.secret sent random eventType data).body
    have hjson := acceptsJson_dump (webhookEnvelope eventType (sent.num.tdiv sent.den) (uuid4Text random) data)
    rw [← signWebhook_body sent random eventType data cfg.secret] at hjson
    rw [← SignedWebhookPayload.request_body] at hbody
    rw [SignedWebhookPayload.delivery] at hsig
    exact authenticate_ok_iff.2 ⟨hbody, hsig, hjson⟩

end

/-! ### The windows of nonces and timestamps -/

open Lockstep WebhookState

/-- The request carries a delivery that was accepted before, with its signature, within
the tolerance of its timestamp and when no entry of its nonce is left. -/
structure Overtakes (cfg : WebhookConfig) (s : WebhookState) (now later : ℚ) (r : WebhookRequest)
    (a : WebhookAcceptance) : Prop where
  accepted : a ∈ s.accepted
  timestamp : r.timestamp = a.delivery.timestamp
  nonce : r.nonce = a.delivery.nonce
  body : decodeUtf8 r.body = some a.delivery.body
  signature : r.signature = signatureHeader cfg.secret a.delivery
  timely : Timely cfg now r.timestamp
  expired : cfg.expiry a.later ≤ later
  fresh : s.store.Fresh later r.nonce

/-- An event that overtakes the nonce of a delivery. -/
def Overtaken (cfg : WebhookConfig) (s : WebhookState) : WebhookEvent → Prop
  | .sign .. => False
  | .receive now later r => ∃ a, Overtakes cfg s now later r a

section

variable {cfg : WebhookConfig} {s : WebhookState} {now later b : ℚ} {r : WebhookRequest}

/-- Up to a reading of the clock: the entry of an accepted delivery is held until it
expires, and an accepted delivery is one that could be accepted. -/
structure Held (cfg : WebhookConfig) (s : WebhookState) (b : ℚ) : Prop where
  entry : ∀ a ∈ s.accepted, (a.delivery.nonce, cfg.expiry a.later) ∈ s.store ∨ cfg.expiry a.later ≤ b
  early : ∀ a ∈ s.accepted, ∀ ts, pyInt a.delivery.timestamp = some ts → (ts - cfg.tolerance : ℚ) ≤ a.later
  headers : ∀ a ∈ s.accepted, a.delivery.timestamp ≠ "" ∧ a.delivery.nonce ≠ ""
  json : ∀ a ∈ s.accepted, acceptsJson a.delivery.body = true

theorem Held.init (b : ℚ) : Held cfg .init b where
  entry _ h := by cases h
  early _ h := by cases h
  headers _ h := by cases h
  json _ h := by cases h

theorem Held.mono (h : Held cfg s now) (hb : now ≤ b) : Held cfg s b :=
  { h with entry := fun a ha => (h.entry a ha).imp_right fun he => he.trans hb }

/-- The state after a request that is accepted. -/
theorem step_of_ok {body : String} {kept : NonceStore}
    (h : verifyWebhookRequest cfg s.store now later r = (.ok body, kept)) : (s.step cfg (.receive now later r)).2 =
      { s with store := kept, accepted := s.accepted ++ [⟨later, r.timestamp, r.nonce, body⟩] } := by
  rw [step, h]

/-- What a request leaves behind: an acceptance, or the accepted deliveries as they were. -/
theorem step_receive (cfg : WebhookConfig) (s : WebhookState) (now later : ℚ) (r : WebhookRequest) :
    (∃ body kept, verifyWebhookRequest cfg s.store now later r = (.ok body, kept) ∧
      (s.step cfg (.receive now later r)).2 =
        { s with store := kept, accepted := s.accepted ++ [⟨later, r.timestamp, r.nonce, body⟩] }) ∨
    (∃ e kept, verifyWebhookRequest cfg s.store now later r = (.error e, kept) ∧
      (s.step cfg (.receive now later r)).2 = { s with store := kept }) := by
  cases hv : verifyWebhookRequest cfg s.store now later r with
  | mk answer kept =>
    cases answer with
    | ok body => exact .inl ⟨body, kept, rfl, step_of_ok hv⟩
    | error e => exact .inr ⟨e, kept, rfl, by rw [step, hv]⟩

theorem Held.step (h : Held cfg s later) (hle : now ≤ later) :
    Held cfg (s.step cfg (.receive now later r)).2 later := by
  -- an entry is dropped only past its expiry
  have hkept : ∀ {kept : NonceStore} {answer : Except WebhookError String},
      verifyWebhookRequest cfg s.store now later r = (answer, kept) →
      ∀ a ∈ s.accepted, (a.delivery.nonce, cfg.expiry a.later) ∈ kept ∨ cfg.expiry a.later ≤ later := by
    intro kept answer hv a ha
    by_cases hexp : later < cfg.expiry a.later
    · refine .inl ?_
      have hmem := (h.entry a ha).resolve_right hexp.not_ge
      have hstays : (a.delivery.nonce, cfg.expiry a.later) ∈ (verifyWebhookRequest cfg s.store now later r).2 :=
        mem_verifyWebhookRequest hmem hexp
      rwa [hv] at hstays
    · exact .inr (not_lt.1 hexp)
  rcases step_receive cfg s now later r with ⟨body, kept, hv, hs⟩ | ⟨e, kept, hv, hs⟩
  · obtain ⟨⟨-, hts, hn⟩, ⟨k, hk, hage⟩, -, hauth, rfl⟩ := verifyWebhookRequest_ok_iff.1 hv
    have hjson := (authenticate_ok_iff.1 hauth).2.2
    rw [hs]
    refine ⟨fun a ha => ?_, fun a ha => ?_, fun a ha => ?_, fun a ha => ?_⟩
    · rcases List.mem_append.1 ha with ha | ha
      · exact hkept hv a ha
      · obtain rfl := List.mem_singleton.1 ha
        exact .inl (List.mem_append_right _ (List.mem_singleton.2 rfl))
    · rcases List.mem_append.1 ha with ha | ha
      · exact h.early a ha
      · obtain rfl := List.mem_singleton.1 ha
        intro ts hts'
        obtain rfl := Option.some.inj (hk.symm.trans hts')
        have := (abs_le.1 hage).1
        simp only
        linarith
    · rcases List.mem_append.1 ha with ha | ha
      · exact h.headers a ha
      · obtain rfl := List.mem_singleton.1 ha
        exact ⟨hts, hn⟩
    · rcases List.mem_append.1 ha with ha | ha
      · exact h.json a ha
      · obtain rfl := List.mem_singleton.1 ha
        exact hjson
  · rw [hs]
    exact ⟨hkept hv, h.early, h.headers, h.json⟩

/-- **What a run holds.** -/
theorem Held.run {evs : List WebhookEvent} (hclock : WebhookClock evs) :
    ∀ b, (∀ x ∈ evs.flatMap (·.readings), x ≤ b) → Held cfg (final (WebhookState.step cfg) .init evs) b := by
  induction evs using List.reverseRecOn with
  | nil => exact fun b _ => .init b
  | append_singleton evs e ih =>
    intro b hb
    rw [final_concat]
    rw [WebhookClock, List.flatMap_append, List.pairwise_append] at hclock
    obtain ⟨hevs, hlast, hle⟩ := hclock
    cases e with
    | sign now random eventType data =>
      have hprev := ih hevs b fun x hx => hb x (by rw [List.flatMap_append]; exact List.mem_append_left _ hx)
      exact { hprev with }
    | receive now later r =>
      have hprev : Held cfg (final (WebhookState.step cfg) .init evs) later :=
        ih hevs later fun x hx => hle x hx later (by simp [WebhookEvent.readings])
      have hnow : now ≤ later := by simpa [WebhookEvent.readings] using hlast
      exact (hprev.step hnow).mono (hb later (by simp [WebhookEvent.readings]))

/-- Only a request whose second reading is at or past the upper end of the window overtakes
a nonce, and its first one is not past it. -/
theorem Overtakes.straddles (h : Held cfg s later) {a : WebhookAcceptance} (ho : Overtakes cfg s now later r a) :
    ∃ ts, pyInt r.timestamp = some ts ∧ now ≤ ts + cfg.tolerance ∧ ts + cfg.tolerance ≤ later := by
  obtain ⟨ts, hts, hage⟩ := ho.timely
  have hearly := h.early a ho.accepted ts (ho.timestamp ▸ hts)
  have hexp := ho.expired
  rw [WebhookConfig.expiry] at hexp
  push_cast at hexp
  exact ⟨ts, hts, by linarith [(abs_le.1 hage).2], by linarith⟩

/-- **A request repeats a delivery exactly if it overtakes its nonce.** -/
theorem deliveries_step (h : Held cfg s later) (hnodup : s.deliveries.Nodup) :
    (s.step cfg (.receive now later r)).2.deliveries.Nodup ↔ ¬ Overtaken cfg s (.receive now later r) := by
  rcases step_receive cfg s now later r with ⟨body, kept, hv, hs⟩ | ⟨e, kept, hv, hs⟩
  · obtain ⟨-, htimely, hfresh, hauth, -⟩ := verifyWebhookRequest_ok_iff.1 hv
    obtain ⟨hbody, hsig, -⟩ := authenticate_ok_iff.1 hauth
    have hnew : (s.step cfg (.receive now later r)).2.deliveries =
        s.deliveries ++ [⟨r.timestamp, r.nonce, body⟩] := by
      rw [hs, deliveries, List.map_append]
      rfl
    rw [hnew, List.nodup_append]
    constructor
    · rintro ⟨-, -, hne⟩ ⟨a, ha⟩
      have hd : a.delivery = ⟨r.timestamp, r.nonce, body⟩ := by
        have hb := Option.some.inj (ha.body.symm.trans hbody)
        rw [ha.timestamp, ha.nonce, ← hb]
      exact hne _ (List.mem_map_of_mem ha.accepted) _ (List.mem_singleton.2 rfl) hd
    · intro hno
      refine ⟨hnodup, List.nodup_singleton _, fun d hd d' hd' heq => hno ?_⟩
      obtain rfl := List.mem_singleton.1 hd'
      obtain ⟨a, ha, rfl⟩ := List.mem_map.1 hd
      have hn : a.delivery.nonce = r.nonce := congrArg (·.nonce) heq
      refine ⟨a, ha, by rw [heq], hn.symm, by rw [hbody, heq], by rw [hsig, heq], htimely, ?_, hfresh⟩
      -- the entry of the earlier acceptance has gone
      exact (h.entry a ha).elim (fun hmem => hfresh _ hmem hn) id
  · have hsame : (s.step cfg (.receive now later r)).2.deliveries = s.deliveries := by
      rw [hs]
      rfl
    rw [hsame]
    refine iff_of_true hnodup ?_
    rintro ⟨a, ha⟩
    obtain ⟨hts, hn⟩ := h.headers a ha.accepted
    have hauth : authenticate cfg.secret r = .ok a.delivery.body :=
      authenticate_ok_iff.2 ⟨ha.body, by rw [ha.signature, ha.timestamp, ha.nonce], h.json a ha.accepted⟩
    have hsig : r.signature ≠ "" := by
      rw [ha.signature, signatureHeader]
      intro hempty
      have := congrArg String.length hempty
      simp at this
    have hok := verifyWebhookRequest_ok_iff.2
      ⟨⟨hsig, ha.timestamp ▸ hts, ha.nonce ▸ hn⟩, ha.timely, ha.fresh, hauth, rfl⟩
    rw [hv] at hok
    cases (Prod.mk.inj hok).1

/-- Nothing that was accepted is forgotten. -/
theorem deliveries_grow (cfg : WebhookConfig) (s : WebhookState) (e : WebhookEvent) :
    s.deliveries <+: (s.step cfg e).2.deliveries := by
  cases e with
  | sign now random eventType data => exact List.prefix_refl _
  | receive now later r =>
    rcases step_receive cfg s now later r with ⟨body, kept, -, hs⟩ | ⟨e, kept, -, hs⟩
    · rw [hs, deliveries, deliveries, List.map_append]
      exact List.prefix_append ..
    · rw [hs]
      exact List.prefix_refl _

/-- **No delivery is accepted twice exactly if no request overtakes a nonce**: a run with a
clock that never goes back. -/
theorem deliveries_nodup_iff {cfg : WebhookConfig} {evs : List WebhookEvent} (hclock : WebhookClock evs) :
    (final (WebhookState.step cfg) .init evs).deliveries.Nodup ↔
      Along (WebhookState.step cfg) (fun s e => ¬ Overtaken cfg s e) .init evs := by
  induction evs using List.reverseRecOn with
  | nil => exact iff_of_true List.nodup_nil trivial
  | append_singleton evs e ih =>
    rw [WebhookClock, List.flatMap_append, List.pairwise_append] at hclock
    obtain ⟨hevs, -, hle⟩ := hclock
    rw [Along.append, final_concat, ← ih hevs]
    by_cases hnodup : (final (WebhookState.step cfg) .init evs).deliveries.Nodup
    · cases e with
      | sign now random eventType data => exact iff_of_true hnodup ⟨hnodup, not_false, trivial⟩
      | receive now later r =>
        have hheld : Held cfg (final (WebhookState.step cfg) .init evs) later :=
          Held.run hevs later fun x hx => hle x hx later (by simp [WebhookEvent.readings])
        rw [deliveries_step hheld hnodup]
        exact ⟨fun h => ⟨hnodup, h, trivial⟩, fun h => h.2.1⟩
    · refine iff_of_false (fun h => hnodup ?_) fun h => hnodup h.1
      exact h.sublist (deliveries_grow cfg _ e).sublist

end

/-! Accepted as early as possible, and again as late as possible. -/

theorem zeros_length : (List.replicate 16 (0 : UInt8)).length = 16 := List.length_replicate

/-- The default tolerance and secret. -/
def edgeConfig : WebhookConfig := ⟨300, webhookSecret ""⟩

/-- The random bytes of a nonce. -/
def edgeRandom : { bs : Bytes // bs.length = 16 } := ⟨List.replicate 16 0, zeros_length⟩

/-- A delivery that is signed at 1000. -/
def edgePayload : SignedWebhookPayload := signWebhook edgeConfig.secret 1000 edgeRandom "decision.recorded" []

/-- It arrives at 700 and at 1300. -/
def edgeRun : List WebhookEvent :=
  [.sign 1000 edgeRandom "decision.recorded" [], .receive 700 700 edgePayload.request,
    .receive 1300 1300 edgePayload.request]

theorem edgeRun_clock : WebhookClock edgeRun := by
  norm_num [WebhookClock, edgeRun, WebhookEvent.readings]

/-- The hypothesis is satisfiable. -/
theorem deliveries_nodup_edge : (final (WebhookState.step edgeConfig) .init edgeRun).deliveries.Nodup ↔
    Along (WebhookState.step edgeConfig) (fun s e => ¬ Overtaken edgeConfig s e) .init edgeRun :=
  deliveries_nodup_iff edgeRun_clock

theorem pyInt_thousand : pyInt (strInt ((1000 : ℚ).num.tdiv (1000 : ℚ).den)) = some 1000 := by decide +kernel

/-- At 700 and at 1300 the timestamp is within the tolerance. -/
theorem edge_timely {now : ℚ} (h : |now - 1000| ≤ 300) :
    Timely edgeConfig now (strInt ((1000 : ℚ).num.tdiv (1000 : ℚ).den)) :=
  ⟨1000, pyInt_thousand, by simpa [edgeConfig] using h⟩

/-- **One delivery is accepted twice.** -/
theorem delivery_repeated : 0 < edgeConfig.tolerance ∧ WebhookClock edgeRun ∧
    ¬ (final (WebhookState.step edgeConfig) .init edgeRun).deliveries.Nodup := by
  let store : NonceStore := NonceStore.live [] 700 ++ [(uuid4Text edgeRandom, edgeConfig.expiry 700)]
  have hfirst : verifyWebhookRequest edgeConfig [] 700 700 edgePayload.request = (.ok edgePayload.body, store) :=
    verify_signWebhook _ _ _ _ (edge_timely (by norm_num [abs_le])) fun e he => by cases he
  have hagain : verifyWebhookRequest edgeConfig store 1300 1300 edgePayload.request =
      (.ok edgePayload.body, store.live 1300 ++ [(uuid4Text edgeRandom, edgeConfig.expiry 1300)]) := by
    refine verify_signWebhook _ _ _ _ (edge_timely (by norm_num [abs_le])) fun e he _ => ?_
    obtain rfl := List.mem_singleton.1 he
    norm_num [edgeConfig, WebhookConfig.expiry]
  let signed : WebhookState := ⟨[], [edgePayload.delivery], []⟩
  let once : WebhookState := ⟨store, [edgePayload.delivery], [⟨700, edgePayload.delivery⟩]⟩
  have hsigned : (WebhookState.init.step edgeConfig (.sign 1000 edgeRandom "decision.recorded" [])).2 = signed := rfl
  have honce : (signed.step edgeConfig (.receive 700 700 edgePayload.request)).2 = once := step_of_ok hfirst
  have htwice := step_of_ok (s := once) hagain
  have hrun : (final (WebhookState.step edgeConfig) .init edgeRun).deliveries =
      [edgePayload.delivery, edgePayload.delivery] := by
    rw [final, edgeRun, List.foldl_cons, List.foldl_cons, List.foldl_cons, List.foldl_nil, hsigned, honce, htwice]
    rfl
  refine ⟨by decide, edgeRun_clock, ?_⟩
  rw [hrun]
  simp

end ProvableAi
