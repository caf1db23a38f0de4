import Signer.Handlers.Common
import Signer.Intent
import Signer.OrderCaps
import Signer.Orders

/-!
# The KuCoin, Bybit and OKX handlers

KuCoin and Bybit have no structured route, so a key with order caps signs nothing there.
OKX has a generic route and structured orders and cancels.
-/

namespace Signer

open Proc

variable {path : String} {ts : UInt64} {blob : Opened} {triple : PassphraseSecret}

def handleSignKucoin (env : Env) (amb : Ambient) (req : SignRequest)
    (identity : ResolvedIdentity) : Handler SignResponse := do
  let method ← Proc.ofOption req.method (.err .badRequest)
  let path ← Proc.ofOption req.path (.err .badRequest)
  let body ← Proc.ofOption req.body (.err .badRequest)
  let ts ← Proc.ofOption req.timestampMs (.err .badRequest)
  Proc.ensure (method ∈ allowedMethods) (.err .badRequest)
  let blob ← openBlob env amb req identity
  Proc.ensure ((blob.policy.bind Policy.orderCaps).isNone) (denyUnder blob.policyHash .policyDenied)
  let triple ← completeSecret (env.passphraseSecretFromValue blob.secretJson)
    PassphraseSecret.isComplete blob.policyHash
  releaseHeaders
    (computeKucoinHeaders env triple.secret triple.passphrase triple.key ts method path body)
    blob.policyHash

def handleSignBybit (env : Env) (amb : Ambient) (req : SignRequest)
    (identity : ResolvedIdentity) : Handler SignResponse := do
  let method ← Proc.ofOption req.method (.err .badRequest)
  let body ← Proc.ofOption req.body (.err .badRequest)
  let ts ← Proc.ofOption req.timestampMs (.err .badRequest)
  Proc.ensure (method ∈ allowedMethods) (.err .badRequest)
  let userQuery := req.query.getD ""
  let blob ← openBlob env amb req identity
  Proc.ensure ((blob.policy.bind Policy.orderCaps).isNone) (denyUnder blob.policyHash .policyDenied)
  let pair ← completeSecret (env.keySecretFromValue blob.secretJson) KeySecret.isComplete
    blob.policyHash
  releaseHeaders (computeBybitHeaders env pair.secret pair.key ts method userQuery body)
    blob.policyHash

/-- The `request_path` of `handle_sign_okx`: the path with the separate query merged in. -/
def okxRequestPath (path : String) (query : Option String) : String :=
  match query with
  | none => path
  | some q =>
    if q = "" then path else if '?' ∈ path.toList then path ++ "&" ++ q else path ++ "?" ++ q

def handleSignOkx (env : Env) (amb : Ambient) (req : SignRequest)
    (identity : ResolvedIdentity) : Handler SignResponse := do
  let method ← Proc.ofOption req.method (.err .badRequest)
  let path ← Proc.ofOption req.path (.err .badRequest)
  let body ← Proc.ofOption req.body (.err .badRequest)
  let ts ← Proc.ofOption req.timestampMs (.err .badRequest)
  Proc.ensure (method ∈ allowedMethods) (.err .badRequest)
  let blob ← openBlob env amb req identity
  let requestPath := okxRequestPath path req.query
  Proc.ensure ((blob.policy.bind Policy.orderCaps).isSome →
      genericCappedOpAllowed "okx" method requestPath "" body)
    (denyUnder blob.policyHash .policyDenied)
  let triple ← completeSecret (env.passphraseSecretFromValue blob.secretJson)
    PassphraseSecret.isComplete blob.policyHash
  let headers ← Proc.ofOption
    (computeOkxHeaders env triple.secret triple.passphrase triple.key ts method requestPath body)
    (denyUnder blob.policyHash .badRequest)
  releaseHeaders headers blob.policyHash

def releaseOkx (env : Env) (blob : Opened) (ts : UInt64) (path : String)
    (canonical : Option String) : Handler SignResponse := do
  let canonical ← Proc.ofOption canonical (denyUnder blob.policyHash .badRequest)
  let triple ← completeSecret (env.passphraseSecretFromValue blob.secretJson)
    PassphraseSecret.isComplete blob.policyHash
  let headers ← Proc.ofOption
    (computeOkxHeaders env triple.secret triple.passphrase triple.key ts "POST" path canonical)
    (denyUnder blob.policyHash .badRequest)
  releaseCanonical headers canonical blob.policyHash

def handleSignOkxOrder (env : Env) (amb : Ambient) (req : SignRequest)
    (identity : ResolvedIdentity) : Handler SignResponse := do
  let order ← Proc.ofOption req.order (.err .badRequest)
  let ts ← Proc.ofOption req.timestampMs (.err .badRequest)
  let blob ← openBlob env amb req identity
  underPolicy blob.policyHash (enforceOrderCap blob.policy order.symbol
    (some order.qty) order.price)
  (enforceAgentIntentOrder env blob.policy identity "okx" .signOkxOrder ts order req).mapError
    (·.withPolicyHash blob.policyHash)
  releaseOkx env blob ts "/api/v5/trade/order" (buildOkxOrderBody order)

def handleSignOkxCancel (env : Env) (amb : Ambient) (req : SignRequest)
    (identity : ResolvedIdentity) : Handler SignResponse := do
  let cancel ← Proc.ofOption req.cancel (.err .badRequest)
  let ts ← Proc.ofOption req.timestampMs (.err .badRequest)
  let blob ← openBlob env amb req identity
  underPolicy blob.policyHash (enforceOrderCap blob.policy cancel.symbol none none)
  (enforceAgentIntentCancel env blob.policy identity "okx" .signOkxCancel ts cancel req).mapError
    (·.withPolicyHash blob.policyHash)
  releaseOkx env blob ts "/api/v5/trade/cancel-order" (buildOkxCancelBody cancel)

/-! ### What the routes change -/

section

variable {env : Env} {amb : Ambient} {req : SignRequest} {identity : ResolvedIdentity}
  {I : Enclave → Prop}

theorem handleSignKucoin_keeps (hI : HandlerInvariant env I) :
    (handleSignKucoin env amb req identity).Keeps I := by
  simp [handleSignKucoin, keeps_openBlob_bind hI.toLoadInvariant]

theorem handleSignBybit_keeps (hI : HandlerInvariant env I) :
    (handleSignBybit env amb req identity).Keeps I := by
  simp [handleSignBybit, keeps_openBlob_bind hI.toLoadInvariant]

theorem handleSignOkx_keeps (hI : HandlerInvariant env I) :
    (handleSignOkx env amb req identity).Keeps I := by
  simp [handleSignOkx, keeps_openBlob_bind hI.toLoadInvariant]

theorem handleSignOkxOrder_keeps (hI : HandlerInvariant env I) :
    (handleSignOkxOrder env amb req identity).Keeps I := by
  simp [handleSignOkxOrder, releaseOkx, keeps_openBlob_bind hI.toLoadInvariant,
    keeps_intentOrder_bind hI.ledger]

theorem handleSignOkxCancel_keeps (hI : HandlerInvariant env I) :
    (handleSignOkxCancel env amb req identity).Keeps I := by
  simp [handleSignOkxCancel, releaseOkx, keeps_openBlob_bind hI.toLoadInvariant,
    keeps_intentCancel_bind hI.ledger]

end

/-! ### When the routes sign -/

section

variable {env : Env} {amb : Ambient} {req : SignRequest} {identity : ResolvedIdentity}
  {s s' : Enclave} {resp : SignResponse} {t : List Event}

theorem handleSignKucoin_signs :
    (∃ resp, (handleSignKucoin env amb req identity).Returns s resp s' t) ↔
      ∃ method path body ts blob venue triple, req.method = some method ∧ req.path = some path ∧
        req.body = some body ∧ req.timestampMs = some ts ∧ method ∈ allowedMethods ∧
        Opens env amb req identity s blob venue s' ∧
        (blob.policy.bind Policy.orderCaps).isNone = true ∧
        env.passphraseSecretFromValue blob.secretJson = some triple ∧ triple.isComplete = true ∧
        t = signTrace identity venue blob none
          (.hmac triple.secret (kucoinCanonical ts method path body)) := by
  simp only [handleSignKucoin, returns_ofOption_bind, returns_ensure_bind,
    returns_openBlob_bind, returns_completeSecret_bind, returns_releaseHeaders]
  constructor
  · rintro ⟨resp, method, hmethod, path, hpath, body, hbody, ts, hts, hallowed, blob, venue, s₁, t₁,
      hopens, ⟨hcaps, triple, ⟨htriple, hcomplete⟩, -, rfl, rfl⟩, rfl⟩
    exact ⟨method, path, body, ts, blob, venue, triple, hmethod, hpath, hbody, hts, hallowed,
      hopens, hcaps, htriple, hcomplete, rfl⟩
  · rintro ⟨method, path, body, ts, blob, venue, triple, hmethod, hpath, hbody, hts, hallowed,
      hopens, hcaps, htriple, hcomplete, rfl⟩
    exact ⟨_, method, hmethod, path, hpath, body, hbody, ts, hts, hallowed, blob, venue, s', _,
      hopens, ⟨hcaps, triple, ⟨htriple, hcomplete⟩, rfl, rfl, rfl⟩, rfl⟩

theorem handleSignBybit_signs :
    (∃ resp, (handleSignBybit env amb req identity).Returns s resp s' t) ↔
      ∃ method body ts blob venue pair, req.method = some method ∧ req.body = some body ∧
        req.timestampMs = some ts ∧ method ∈ allowedMethods ∧
        Opens env amb req identity s blob venue s' ∧
        (blob.policy.bind Policy.orderCaps).isNone = true ∧
        env.keySecretFromValue blob.secretJson = some pair ∧ pair.isComplete = true ∧
        t = signTrace identity venue blob none (.hmac pair.secret
          (bybitCanonical ts pair.key "5000" (bybitPayload method (req.query.getD "") body))) := by
  simp only [handleSignBybit, returns_ofOption_bind, returns_ensure_bind,
    returns_openBlob_bind, returns_completeSecret_bind, returns_releaseHeaders]
  constructor
  · rintro ⟨resp, method, hmethod, body, hbody, ts, hts, hallowed, blob, venue, s₁, t₁, hopens,
      ⟨hcaps, pair, ⟨hpair, hcomplete⟩, -, rfl, rfl⟩, rfl⟩
    exact ⟨method, body, ts, blob, venue, pair, hmethod, hbody, hts, hallowed, hopens, hcaps, hpair,
      hcomplete, rfl⟩
  · rintro ⟨method, body, ts, blob, venue, pair, hmethod, hbody, hts, hallowed, hopens, hcaps,
      hpair, hcomplete, rfl⟩
    exact ⟨_, method, hmethod, body, hbody, ts, hts, hallowed, blob, venue, s', _, hopens,
      ⟨hcaps, pair, ⟨hpair, hcomplete⟩, rfl, rfl, rfl⟩, rfl⟩

theorem computeOkxHeaders_eq {secret passphrase key method body : String} {h : HmacHeaders}
    (hh : computeOkxHeaders env secret passphrase key ts method path body = some h) :
    h.secret = secret ∧ h.message = okxCanonical (okxIso8601FromMs ts) method path body := by
  simp only [computeOkxHeaders, Option.ite_none_left_eq_some, Option.some.injEq] at hh
  obtain ⟨-, rfl⟩ := hh
  exact ⟨rfl, rfl⟩

theorem handleSignOkx_signs (h : (handleSignOkx env amb req identity).Returns s resp s' t) :
    ∃ method path body ts blob venue triple, req.method = some method ∧ req.path = some path ∧
      req.body = some body ∧ req.timestampMs = some ts ∧ method ∈ allowedMethods ∧
      Opens env amb req identity s blob venue s' ∧
      ((blob.policy.bind Policy.orderCaps).isSome →
        genericCappedOpAllowed "okx" method (okxRequestPath path req.query) "" body) ∧
      env.passphraseSecretFromValue blob.secretJson = some triple ∧
      t = signTrace identity venue blob none (.hmac triple.secret
        (okxCanonical (okxIso8601FromMs ts) method (okxRequestPath path req.query) body)) := by
  simp only [handleSignOkx, returns_ofOption_bind, returns_ensure_bind,
    returns_openBlob_bind, returns_completeSecret_bind, returns_releaseHeaders] at h
  obtain ⟨method, hmethod, path, hpath, body, hbody, ts, hts, hallowed, blob, venue, s₁, t₁, hopens,
    ⟨hcaps, triple, ⟨htriple, -⟩, headers, hheaders, -, rfl, rfl⟩, rfl⟩ := h
  obtain ⟨hsecret, hmessage⟩ := computeOkxHeaders_eq hheaders
  refine ⟨method, path, body, ts, blob, venue, triple, hmethod, hpath, hbody, hts, hallowed, hopens,
    hcaps, htriple, ?_⟩
  rw [hsecret, hmessage]
  rfl

theorem computeOkxHeaders_of_isHeaderChar (env : Env) {passphrase : String}
    (h : passphrase.toList.all isHeaderChar = true) (secret key method path body : String)
    (ts : UInt64) :
    ∃ headers, computeOkxHeaders env secret passphrase key ts method path body = some headers := by
  simp [computeOkxHeaders, h]

variable (htriple : env.passphraseSecretFromValue blob.secretJson = some triple)
  (hcomplete : triple.isComplete = true)
  (hheader : triple.passphrase.toList.all isHeaderChar = true)

include htriple hcomplete hheader in
theorem handleSignOkx_of_opens {method body venue : String} (hmethod : req.method = some method)
    (hpath : req.path = some path) (hbody : req.body = some body) (hts : req.timestampMs = some ts)
    (hallowed : method ∈ allowedMethods) (hopens : Opens env amb req identity s blob venue s')
    (hcaps : (blob.policy.bind Policy.orderCaps).isSome →
      genericCappedOpAllowed "okx" method (okxRequestPath path req.query) "" body) :
    ∃ resp, (handleSignOkx env amb req identity).Returns s resp s'
      (signTrace identity venue blob none (.hmac triple.secret
        (okxCanonical (okxIso8601FromMs ts) method (okxRequestPath path req.query) body))) := by
  obtain ⟨headers, hheaders⟩ := computeOkxHeaders_of_isHeaderChar env hheader triple.secret
    triple.key method (okxRequestPath path req.query) body ts
  obtain ⟨hsecret, hmessage⟩ := computeOkxHeaders_eq hheaders
  simp only [handleSignOkx, returns_ofOption_bind, returns_ensure_bind,
    returns_openBlob_bind, returns_completeSecret_bind, returns_releaseHeaders]
  refine ⟨_, method, hmethod, path, hpath, body, hbody, ts, hts, hallowed, blob, venue, s', _,
    hopens, ⟨hcaps, triple, ⟨htriple, hcomplete⟩, headers, hheaders, rfl, rfl, rfl⟩, ?_⟩
  rw [hsecret, hmessage]
  rfl

theorem releaseOkx_returns {canonical : Option String}
    (h : (releaseOkx env blob ts path canonical).Returns s resp s' t) :
    ∃ text triple, canonical = some text ∧
      env.passphraseSecretFromValue blob.secretJson = some triple ∧
      t = [.signed (.hmac triple.secret
        (okxCanonical (okxIso8601FromMs ts) "POST" path text))] := by
  simp only [releaseOkx, returns_ofOption_bind, returns_completeSecret_bind,
    returns_releaseCanonical] at h
  obtain ⟨text, htext, triple, ⟨htriple, -⟩, headers, hheaders, -, -, rfl⟩ := h
  obtain ⟨hsecret, hmessage⟩ := computeOkxHeaders_eq hheaders
  refine ⟨text, triple, htext, htriple, ?_⟩
  rw [hsecret, hmessage]

theorem handleSignOkxOrder_signs
    (h : (handleSignOkxOrder env amb req identity).Returns s resp s' t) :
    ∃ order ts blob venue body triple s₁ intent, req.order = some order ∧
      req.timestampMs = some ts ∧
      Opens env amb req identity s blob venue s₁ ∧
      enforceOrderCap blob.policy order.symbol (some order.qty) order.price = .ok () ∧
      CoversOrder env s₁ blob.policy identity "okx" .signOkxOrder ts order intent ∧
      buildOkxOrderBody order = some body ∧
      env.passphraseSecretFromValue blob.secretJson = some triple ∧
      t = signTrace identity venue blob intent (.hmac triple.secret
        (okxCanonical (okxIso8601FromMs ts) "POST" "/api/v5/trade/order" body)) := by
  simp only [handleSignOkxOrder, returns_ofOption_bind, returns_openBlob_bind,
    returns_underPolicy_bind] at h
  obtain ⟨order, horder, ts, hts, blob, venue, s₁, t₁, hopens, ⟨_, hcap, h⟩, rfl⟩ := h
  obtain ⟨_, s₂, ti, t₂, hintent, hrelease, rfl⟩ := returns_bind.mp h
  obtain ⟨body, triple, hbody, htriple, rfl⟩ := releaseOkx_returns hrelease
  obtain ⟨intent, rfl, hcovers⟩ :=
    enforceAgentIntentOrder_returns (returns_mapError.mp hintent)
  exact ⟨order, ts, blob, venue, body, triple, s₁, intent, horder, hts, hopens, hcap, hcovers,
    hbody, htriple, rfl⟩

theorem handleSignOkxCancel_signs
    (h : (handleSignOkxCancel env amb req identity).Returns s resp s' t) :
    ∃ cancel ts blob venue body triple s₁ intent, req.cancel = some cancel ∧
      req.timestampMs = some ts ∧ Opens env amb req identity s blob venue s₁ ∧
      enforceOrderCap blob.policy cancel.symbol none none = .ok () ∧
      CoversCancel env s₁ blob.policy identity "okx" .signOkxCancel ts req.intentNonce cancel intent ∧
      buildOkxCancelBody cancel = some body ∧
      env.passphraseSecretFromValue blob.secretJson = some triple ∧
      t = signTrace identity venue blob intent (.hmac triple.secret
        (okxCanonical (okxIso8601FromMs ts) "POST" "/api/v5/trade/cancel-order" body)) := by
  simp only [handleSignOkxCancel, returns_ofOption_bind, returns_openBlob_bind,
    returns_underPolicy_bind] at h
  obtain ⟨cancel, hcancel, ts, hts, blob, venue, s₁, t₁, hopens, ⟨_, hcap, h⟩, rfl⟩ := h
  obtain ⟨_, s₂, ti, t₂, hintent, hrelease, rfl⟩ := returns_bind.mp h
  obtain ⟨body, triple, hbody, htriple, rfl⟩ := releaseOkx_returns hrelease
  obtain ⟨intent, rfl, hcovers⟩ :=
    enforceAgentIntentCancel_returns (returns_mapError.mp hintent)
  exact ⟨cancel, ts, blob, venue, body, triple, s₁, intent, hcancel, hts, hopens, hcap, hcovers,
    hbody, htriple, rfl⟩

include htriple hcomplete hheader in
theorem releaseOkx_of_complete (ts : UInt64) (path text : String) (s : Enclave) :
    ∃ resp, (releaseOkx env blob ts path (some text)).Returns s resp s
      [.signed (.hmac triple.secret (okxCanonical (okxIso8601FromMs ts) "POST" path text))] := by
  obtain ⟨headers, hheaders⟩ := computeOkxHeaders_of_isHeaderChar env hheader triple.secret
    triple.key "POST" path text ts
  obtain ⟨hsecret, hmessage⟩ := computeOkxHeaders_eq hheaders
  simp only [releaseOkx, returns_ofOption_bind, returns_completeSecret_bind,
    returns_releaseCanonical]
  refine ⟨_, text, rfl, triple, ⟨htriple, hcomplete⟩, headers, hheaders, rfl, trivial, ?_⟩
  rw [hsecret, hmessage]

include htriple hcomplete hheader in
theorem handleSignOkxCancel_of_opens {cancel : CancelRequest} {venue text : String}
    (hcancel : req.cancel = some cancel) (hts : req.timestampMs = some ts)
    (hopens : Opens env amb req identity s blob venue s')
    (hcap : enforceOrderCap blob.policy cancel.symbol none none = .ok ())
    (hintent : blob.policy.bind Policy.intentPubkey = none)
    (htext : buildOkxCancelBody cancel = some text) :
    ∃ resp, (handleSignOkxCancel env amb req identity).Returns s resp s'
      (signTrace identity venue blob none (.hmac triple.secret
        (okxCanonical (okxIso8601FromMs ts) "POST" "/api/v5/trade/cancel-order" text))) := by
  obtain ⟨resp, hrelease⟩ := releaseOkx_of_complete htriple hcomplete hheader ts
    "/api/v5/trade/cancel-order" text s'
  have hpass : ((enforceAgentIntentCancel env blob.policy identity "okx" .signOkxCancel ts cancel
      req).mapError (·.withPolicyHash blob.policyHash)).Returns s' () s' [] := by
    rw [returns_mapError]
    simp [enforceAgentIntentCancel, hintent]
  simp only [handleSignOkxCancel, returns_ofOption_bind, returns_openBlob_bind,
    returns_underPolicy_bind]
  exact ⟨resp, cancel, hcancel, ts, hts, blob, venue, s', _, hopens, ⟨(), hcap,
    returns_bind.mpr ⟨(), s', [], _, hpass, htext ▸ hrelease, rfl⟩⟩, rfl⟩

end

end Signer
