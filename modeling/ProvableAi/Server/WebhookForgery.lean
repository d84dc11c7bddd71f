/-
# Requests that are not signed, and the nonces they take

`verify_webhook_request` stores the nonce of a request in its third step and
looks at the signature in its fourth.  So a request that gets as far as the
signature takes its nonce along, whoever sent it, and the delivery that the nonce
belongs to is then refused as a replay.

`storeKept_iff` says which requests those are.  Where no request of a run
takes a nonce without a signature, every genuine delivery that arrives in time is accepted,
unless it was accepted before (`Backed.genuine`).
-/

import ProvableAi.Server.Webhook

namespace ProvableAi

open Lockstep WebhookState

/-- The request is answered with status 401. -/
def WebhookError.Unauthorized (e : WebhookError) : Prop :=
  ∀ traceId decodeError, ∃ content, e.response traceId decodeError = .json 401 content

/-- A request that is answered with 401 leaves the store as it was, but for expired entries. -/
def StoreKept (cfg : WebhookConfig) (store : NonceStore) (now later : ℚ) (r : WebhookRequest) : Prop :=
  ∀ e, (verifyWebhookRequest cfg store now later r).1 = .error e → e.Unauthorized →
    (verifyWebhookRequest cfg store now later r).2 = store ∨
      (verifyWebhookRequest cfg store now later r).2 = store.live later

/-- The request gets past the replay protection. -/
structure Reaches (cfg : WebhookConfig) (store : NonceStore) (now later : ℚ) (r : WebhookRequest) : Prop where
  headers : r.signature ≠ "" ∧ r.timestamp ≠ "" ∧ r.nonce ≠ ""
  timely : Timely cfg now r.timestamp
  fresh : store.Fresh later r.nonce

/-- The signature header is that of the delivery the request carries. -/
def WebhookRequest.Signed (cfg : WebhookConfig) (r : WebhookRequest) (body : String) : Prop :=
  decodeUtf8 r.body = some body ∧ r.signature = signatureHeader cfg.secret ⟨r.timestamp, r.nonce, body⟩

/-- A text with a signature that is not its own gets past the replay protection and adds its nonce.  (Only
for a tolerance of zero can the store have held just that entry before.) -/
structure Forged (cfg : WebhookConfig) (store : NonceStore) (now later : ℚ) (r : WebhookRequest) : Prop where
  reaches : Reaches cfg store now later r
  text : (decodeUtf8 r.body).isSome = true
  unsigned : ∀ body, ¬ r.Signed cfg body
  adds : store ≠ store.live later ++ [(r.nonce, cfg.expiry later)]

/-! ### One request -/

section

variable {cfg : WebhookConfig} {store : NonceStore} {now later : ℚ} {r : WebhookRequest}

theorem verify_of_reaches (h : Reaches cfg store now later r) : verifyWebhookRequest cfg store now later r =
    (authenticate cfg.secret r, store.live later ++ [(r.nonce, cfg.expiry later)]) := by
  obtain ⟨⟨hsig, hts, hn⟩, ⟨ts, hint, hage⟩, hfresh⟩ := h
  have hseen := lookup_live.2 hfresh
  rw [verifyWebhookRequest, if_neg (by simp [hsig, hts, hn]), hint]
  simp only
  rw [if_neg (not_lt.2 hage), checkAndStore_eq, hseen]
  rfl

theorem verify_of_not_reaches (h : ¬ Reaches cfg store now later r) :
    (verifyWebhookRequest cfg store now later r).2 = store ∨
      (verifyWebhookRequest cfg store now later r).2 = store.live later := by
  rw [verifyWebhookRequest]
  split_ifs with hheaders
  · exact .inl rfl
  · cases hint : pyInt r.timestamp with
    | none => exact .inl rfl
    | some ts =>
      simp only
      split_ifs with hage
      · exact .inl rfl
      · rw [checkAndStore_eq]
        split_ifs with hseen
        · exact .inr rfl
        · refine absurd ⟨?_, ⟨ts, hint, not_lt.1 hage⟩, ?_⟩ h
          · simpa only [not_or] using hheaders
          · exact lookup_live.1 (Bool.not_eq_true _ ▸ hseen)

/-- What the fourth step says of a text whose signature is not its own, and of the rest. -/
theorem authenticate_unsigned (htext : (decodeUtf8 r.body).isSome = true) (h : ∀ body, ¬ r.Signed cfg body) :
    ∃ e, authenticate cfg.secret r = .error e ∧ e.Unauthorized := by
  obtain ⟨body, hbody⟩ := Option.isSome_iff_exists.1 htext
  have hsig : r.signature ≠ signatureHeader cfg.secret ⟨r.timestamp, r.nonce, body⟩ := fun hs => h body ⟨hbody, hs⟩
  rw [authenticate, hbody]
  simp only
  rw [signatureHeader, ne_eq, eq_sha256_append_iff, not_and] at hsig
  by_cases hpre : "sha256=".toList <+: r.signature.toList
  · rw [if_neg (not_not.2 hpre), if_pos (hsig hpre)]
    exact ⟨_, rfl, fun _ _ => ⟨_, rfl⟩⟩
  · rw [if_pos hpre]
    exact ⟨_, rfl, fun _ _ => ⟨_, rfl⟩⟩

theorem authenticate_signed {body : String} (h : r.Signed cfg body) :
    authenticate cfg.secret r = if acceptsJson body then .ok body else .error (.invalidJson body) := by
  obtain ⟨hbody, hsig⟩ := h
  obtain ⟨hpre, htag⟩ := eq_sha256_append_iff.1 hsig
  rw [authenticate, hbody]
  simp only
  rw [if_neg (not_not.2 hpre), if_neg (not_not.2 htag)]

theorem undecodable_not_unauthorized : ¬ WebhookError.undecodable.Unauthorized := by
  intro h
  obtain ⟨content, hc⟩ := h "" fun _ => ""
  cases hc

theorem invalidJson_not_unauthorized (text : String) : ¬ (WebhookError.invalidJson text).Unauthorized := by
  intro h
  obtain ⟨content, hc⟩ := h "" fun _ => ""
  cases hc

/-- An entry that is not expired has been added. -/
theorem live_append_ne {x : String × ℚ} : store.live later ++ [x] ≠ store.live later := by
  intro h
  have := congrArg List.length h
  simp at this

/-- **A request that is answered with 401 leaves the store exactly if it is not forged.** -/
theorem storeKept_iff : StoreKept cfg store now later r ↔ ¬ Forged cfg store now later r := by
  by_cases hreach : Reaches cfg store now later r
  · rw [StoreKept, verify_of_reaches hreach]
    constructor
    · rintro h ⟨-, htext, hunsigned, hadds⟩
      obtain ⟨e, he, h401⟩ := authenticate_unsigned htext hunsigned
      rcases h e he h401 with hsame | hsame
      · exact hadds hsame.symm
      · exact live_append_ne hsame
    · intro hnot e he h401
      cases htext : decodeUtf8 r.body with
      | none =>
        rw [authenticate, htext] at he
        obtain rfl := Except.error.inj he
        exact absurd h401 undecodable_not_unauthorized
      | some body =>
        by_cases hsigned : r.Signed cfg body
        · rw [authenticate_signed hsigned] at he
          split_ifs at he
          obtain rfl := Except.error.inj he
          exact absurd h401 (invalidJson_not_unauthorized body)
        · left
          by_contra hadds
          refine hnot ⟨hreach, by rw [htext]; rfl, fun body' hb => hsigned ?_, fun h => hadds h.symm⟩
          obtain rfl := Option.some.inj (htext.symm.trans hb.1)
          exact hb
  · exact iff_of_true (fun _ _ _ => verify_of_not_reaches hreach) fun h => hreach h.reaches

end

/-! ### Runs -/

/-- A request takes a nonce without a signature. -/
def Burns (cfg : WebhookConfig) (s : WebhookState) : WebhookEvent → Prop
  | .sign .. => False
  | .receive now later r => Reaches cfg s.store now later r ∧ ∀ body, ¬ r.Signed cfg body

/-- Of the requests of a run, those with a signature and the nonce of the delivery carry the delivery. -/
def SoleSigned (cfg : WebhookConfig) (evs : List WebhookEvent) (d : WebhookDelivery) : Prop :=
  ∀ now later r body, .receive now later r ∈ evs → r.Signed cfg body → r.nonce = d.nonce →
    d = ⟨r.timestamp, r.nonce, body⟩

/-- Every nonce of the store is that of a request of the run that was signed, and accepted if it was JSON. -/
def Backed (cfg : WebhookConfig) (evs : List WebhookEvent) (s : WebhookState) : Prop :=
  ∀ e ∈ s.store, ∃ now later r body, .receive now later r ∈ evs ∧ r.nonce = e.1 ∧ r.Signed cfg body ∧
    (acceptsJson body = true → ⟨r.timestamp, r.nonce, body⟩ ∈ s.deliveries)

section

variable {cfg : WebhookConfig} {evs : List WebhookEvent} {s : WebhookState}

/-- More of the run, with some of the store. -/
theorem Backed.mono {s' : WebhookState} {e : WebhookEvent} (h : Backed cfg evs s) (hd : s.deliveries <+: s'.deliveries)
    (hsub : ∀ x ∈ s'.store, x ∈ s.store) : Backed cfg (evs ++ [e]) s' := by
  intro x hx
  obtain ⟨now, later, r, body, hr, hn, hsigned, hacc⟩ := h x (hsub x hx)
  exact ⟨now, later, r, body, List.mem_append_left _ hr, hn, hsigned, fun hjson => hd.subset (hacc hjson)⟩

/-- **A request that takes no nonce without a signature.** -/
theorem Backed.step {e : WebhookEvent} (h : Backed cfg evs s) (hb : ¬ Burns cfg s e) :
    Backed cfg (evs ++ [e]) (s.step cfg e).2 := by
  have hgrow := deliveries_grow cfg s e
  cases e with
  | sign now random eventType data => exact h.mono hgrow fun x hx => hx
  | receive now later r =>
    have hstore : (s.step cfg (.receive now later r)).2.store = (verifyWebhookRequest cfg s.store now later r).2 := by
      rcases step_receive cfg s now later r with ⟨body, kept, hv, hs⟩ | ⟨e, kept, hv, hs⟩ <;> rw [hs, hv]
    by_cases hreach : Reaches cfg s.store now later r
    · obtain ⟨body, hsigned⟩ : ∃ body, r.Signed cfg body := by
        by_contra hnone
        exact hb ⟨hreach, fun body hs => hnone ⟨body, hs⟩⟩
      intro x hx
      rw [hstore, verify_of_reaches hreach] at hx
      rcases List.mem_append.1 hx with hx | hx
      · obtain ⟨now', later', r', body', hr', hn', hs', hacc⟩ := h x (mem_live.1 hx).1
        exact ⟨now', later', r', body', List.mem_append_left _ hr', hn', hs', fun hjson => hgrow.subset (hacc hjson)⟩
      · obtain rfl := List.mem_singleton.1 hx
        refine ⟨now, later, r, body, by simp, rfl, hsigned, fun hjson => ?_⟩
        have hok : verifyWebhookRequest cfg s.store now later r =
            (.ok body, s.store.live later ++ [(r.nonce, cfg.expiry later)]) := by
          rw [verify_of_reaches hreach, authenticate_signed hsigned, if_pos hjson]
        rw [step_of_ok hok, deliveries, List.map_append]
        exact List.mem_append_right _ (List.mem_singleton.2 rfl)
    · refine h.mono hgrow fun x hx => ?_
      rw [hstore] at hx
      rcases verify_of_not_reaches hreach with hsame | hlive
      · rwa [hsame] at hx
      · rw [hlive] at hx
        exact (mem_live.1 hx).1

theorem Backed.run : Along (WebhookState.step cfg) (fun s e => ¬ Burns cfg s e) .init evs →
    Backed cfg evs (final (WebhookState.step cfg) .init evs) := by
  induction evs using List.reverseRecOn with
  | nil => exact fun _ e he => by cases he
  | append_singleton evs e ih =>
    intro h
    obtain ⟨hpast, hlast, -⟩ := Along.append.1 h
    rw [final_concat]
    exact (ih hpast).step hlast

/-- A genuine delivery that arrives in time is accepted unless it was accepted before. -/
theorem Backed.genuine (h : Backed cfg evs s) {sent : ℚ} {random : { bs : Bytes // bs.length = 16 }}
    {eventType : String} {data : List (String × PyData)} {now later : ℚ}
    (htimely : Timely cfg now (signWebhook cfg.secret sent random eventType data).request.timestamp)
    (hsole : SoleSigned cfg evs (signWebhook cfg.secret sent random eventType data).delivery) :
    (verifyWebhookRequest cfg s.store now later (signWebhook cfg.secret sent random eventType data).request).1 =
        .ok (signWebhook cfg.secret sent random eventType data).body ∨
      (signWebhook cfg.secret sent random eventType data).delivery ∈ s.deliveries := by
  have hts := signWebhook_timestamp sent random eventType data cfg.secret
  have hn := signWebhook_nonce sent random eventType data cfg.secret
  by_cases hfresh : s.store.Fresh later (uuid4Text random)
  · left
    rw [verify_signWebhook sent random eventType data (hts ▸ htimely) hfresh]
  · right
    rw [NonceStore.Fresh] at hfresh
    push Not at hfresh
    obtain ⟨x, hx, hnonce, -⟩ := hfresh
    obtain ⟨now', later', r, body, hr, hrn, hsigned, hacc⟩ := h x hx
    have hsame := hsole now' later' r body hr hsigned (by rw [hrn, hnonce, SignedWebhookPayload.delivery, hn])
    have hbody : (signWebhook cfg.secret sent random eventType data).body = body := congrArg (·.body) hsame
    rw [hsame]
    refine hacc ?_
    rw [← hbody, signWebhook_body]
    exact acceptsJson_dump _

end

/-- The timestamp and the nonce of the example, under a signature of nobody. -/
def forgedRequest : WebhookRequest :=
  ⟨[("X-Zorynex-Signature", "forged"), ("X-Zorynex-Timestamp", edgePayload.request.timestamp),
    ("X-Zorynex-Nonce", edgePayload.request.nonce)], []⟩

/-- The store after it. -/
def forgedStore : NonceStore := [(uuid4Text edgeRandom, edgeConfig.expiry 1000)]

end ProvableAi
