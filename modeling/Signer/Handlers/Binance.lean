import Signer.Handlers.Common
import Signer.Intent
import Signer.OrderCaps
import Signer.Orders

/-!
# The Binance handlers

Four routes: the generic one, the one for named operations, and the structured order and
cancel. Binance signs the parameters only, neither the method nor the path.
-/

namespace Signer

open Proc

def handleSignBinance (env : Env) (amb : Ambient) (req : SignRequest)
    (identity : ResolvedIdentity) : Handler SignResponse := do
  let method ← Proc.ofOption req.method (.err .badRequest)
  let body ← Proc.ofOption req.body (.err .badRequest)
  let ts ← Proc.ofOption req.timestampMs (.err .badRequest)
  Proc.ensure (method ∈ allowedMethods) (.err .badRequest)
  let userQuery := req.query.getD ""
  let blob ← openBlob env amb req identity
  Proc.ensure ((blob.policy.bind Policy.orderCaps).isSome →
      genericCappedOpAllowed "binance" method (req.path.getD "") userQuery body)
    (denyUnder blob.policyHash .policyDenied)
  let pair ← completeSecret (env.keySecretFromValue blob.secretJson) KeySecret.isComplete
    blob.policyHash
  releaseHeaders (computeBinanceHeaders env pair.secret pair.key ts userQuery body) blob.policyHash

/-- The headers of `handle_sign_binance_request`: the payload as it stands is signed. -/
def binanceRequestHeaders (env : Env) (pair : KeySecret) (payload : String) : HmacHeaders where
  secret := pair.secret
  message := binanceCanonical payload ""
  headers := [("api_key", pair.key),
    ("signature", Text.hexEncode (hmacText env pair.secret (binanceCanonical payload "")))]

/-- The request `handle_sign_binance_request` goes on with: the route of the operation
replaces what the caller sent. -/
def stampRoute (req : SignRequest) (route : String × String) : SignRequest :=
  { req with op := none, payload := none, method := some route.1, path := some route.2 }

def handleSignBinanceRequest (env : Env) (amb : Ambient) (req : SignRequest)
    (identity : ResolvedIdentity) : Handler SignResponse := do
  let op ← Proc.ofOption req.op (.err .badRequest)
  let payload ← Proc.ofOption req.payload (.err .badRequest)
  Proc.ofExcept ((checkBinanceRequestAllow op payload).mapError fun _ =>
    SignResponse.err .actionNotAllowed)
  let route ← Proc.ofOption (binanceRequestMethodPath op) (.err .internalError)
  let blob ← openBlob env amb (stampRoute req route) identity
  Proc.ensure (binanceRequestOrderDeniedForCapped op blob.policy = false)
    (denyUnder blob.policyHash .policyDenied)
  let pair ← completeSecret (env.keySecretFromValue blob.secretJson) KeySecret.isComplete
    blob.policyHash
  releaseHeaders (binanceRequestHeaders env pair payload) blob.policyHash

def handleSignBinanceOrder (env : Env) (amb : Ambient) (req : SignRequest)
    (identity : ResolvedIdentity) : Handler SignResponse := do
  let order ← Proc.ofOption req.order (.err .badRequest)
  let ts ← Proc.ofOption req.timestampMs (.err .badRequest)
  let blob ← openBlob env amb req identity
  underPolicy blob.policyHash (enforceOrderCap blob.policy order.symbol
    (some order.qty) order.price)
  (enforceAgentIntentOrder env blob.policy identity "binance" .signBinanceOrder ts order req).mapError
    (·.withPolicyHash blob.policyHash)
  let canonical ← Proc.ofOption (buildBinanceOrderQuery order)
    (denyUnder blob.policyHash .badRequest)
  let pair ← completeSecret (env.keySecretFromValue blob.secretJson) KeySecret.isComplete
    blob.policyHash
  releaseCanonical (computeBinanceHeaders env pair.secret pair.key ts canonical "") canonical
    blob.policyHash

def handleSignBinanceCancel (env : Env) (amb : Ambient) (req : SignRequest)
    (identity : ResolvedIdentity) : Handler SignResponse := do
  let cancel ← Proc.ofOption req.cancel (.err .badRequest)
  let ts ← Proc.ofOption req.timestampMs (.err .badRequest)
  let blob ← openBlob env amb req identity
  underPolicy blob.policyHash (enforceOrderCap blob.policy cancel.symbol none none)
  (enforceAgentIntentCancel env blob.policy identity "binance" .signBinanceCancel ts cancel
    req).mapError (·.withPolicyHash blob.policyHash)
  let canonical ← Proc.ofOption (buildBinanceCancelQuery cancel)
    (denyUnder blob.policyHash .badRequest)
  let pair ← completeSecret (env.keySecretFromValue blob.secretJson) KeySecret.isComplete
    blob.policyHash
  releaseCanonical (computeBinanceHeaders env pair.secret pair.key ts canonical "") canonical
    blob.policyHash

/-! ### What the routes change -/

section

variable {env : Env} {amb : Ambient} {req : SignRequest} {identity : ResolvedIdentity}
  {I : Enclave → Prop}

theorem handleSignBinance_keeps (hI : HandlerInvariant env I) :
    (handleSignBinance env amb req identity).Keeps I := by
  simp [handleSignBinance, keeps_openBlob_bind hI.toLoadInvariant]

theorem handleSignBinanceRequest_keeps (hI : HandlerInvariant env I) :
    (handleSignBinanceRequest env amb req identity).Keeps I := by
  simp [handleSignBinanceRequest, keeps_openBlob_bind hI.toLoadInvariant]

theorem handleSignBinanceOrder_keeps (hI : HandlerInvariant env I) :
    (handleSignBinanceOrder env amb req identity).Keeps I := by
  simp [handleSignBinanceOrder, keeps_openBlob_bind hI.toLoadInvariant,
    keeps_intentOrder_bind hI.ledger]

theorem handleSignBinanceCancel_keeps (hI : HandlerInvariant env I) :
    (handleSignBinanceCancel env amb req identity).Keeps I := by
  simp [handleSignBinanceCancel, keeps_openBlob_bind hI.toLoadInvariant,
    keeps_intentCancel_bind hI.ledger]

end

/-! ### When the routes sign -/

section

variable {env : Env} {amb : Ambient} {req : SignRequest} {identity : ResolvedIdentity}
  {s s' : Enclave} {t : List Event}

theorem handleSignBinance_signs :
    (∃ resp, (handleSignBinance env amb req identity).Returns s resp s' t) ↔
      ∃ method body ts blob venue pair, req.method = some method ∧ req.body = some body ∧
        req.timestampMs = some ts ∧ method ∈ allowedMethods ∧
        Opens env amb req identity s blob venue s' ∧
        ((blob.policy.bind Policy.orderCaps).isSome →
          genericCappedOpAllowed "binance" method (req.path.getD "") (req.query.getD "") body) ∧
        env.keySecretFromValue blob.secretJson = some pair ∧ pair.isComplete = true ∧
        t = signTrace identity venue blob none (.hmac pair.secret
          (binanceCanonical (binanceFullQuery ts (req.query.getD "")) body)) := by
  simp only [handleSignBinance, returns_ofOption_bind, returns_ensure_bind,
    returns_openBlob_bind, returns_completeSecret_bind, returns_releaseHeaders]
  constructor
  · rintro ⟨resp, method, hmethod, body, hbody, ts, hts, hallowed, blob, venue, s₁, t₁, hopens,
      ⟨hcaps, pair, ⟨hpair, hcomplete⟩, -, rfl, rfl⟩, rfl⟩
    exact ⟨method, body, ts, blob, venue, pair, hmethod, hbody, hts, hallowed, hopens, hcaps, hpair,
      hcomplete, rfl⟩
  · rintro ⟨method, body, ts, blob, venue, pair, hmethod, hbody, hts, hallowed, hopens, hcaps,
      hpair, hcomplete, rfl⟩
    exact ⟨_, method, hmethod, body, hbody, ts, hts, hallowed, blob, venue, s', _, hopens,
      ⟨hcaps, pair, ⟨hpair, hcomplete⟩, rfl, rfl, rfl⟩, rfl⟩

theorem handleSignBinanceRequest_signs
    {resp : SignResponse} (h : (handleSignBinanceRequest env amb req identity).Returns s resp s' t) :
    ∃ op payload route blob venue pair, req.op = some op ∧ req.payload = some payload ∧
      checkBinanceRequestAllow op payload = .ok () ∧ binanceRequestMethodPath op = some route ∧
      Opens env amb (stampRoute req route) identity s blob venue s' ∧
      binanceRequestOrderDeniedForCapped op blob.policy = false ∧
      env.keySecretFromValue blob.secretJson = some pair ∧
      resp = (SignResponse.okHeaders (binanceRequestHeaders env pair payload).headers).withPolicyHash
        blob.policyHash ∧
      t = signTrace identity venue blob none
        (.hmac pair.secret (binanceCanonical payload "")) := by
  simp only [handleSignBinanceRequest, returns_ofOption_bind, returns_ofExcept_bind,
    returns_ensure_bind, returns_openBlob_bind, returns_completeSecret_bind,
    returns_releaseHeaders] at h
  obtain ⟨op, hop, payload, hpayload, _, hcheck, route, hroute, blob, venue, s₁, t₁, hopens,
    ⟨hdenied, pair, ⟨hpair, -⟩, hresp, rfl, rfl⟩, rfl⟩ := h
  refine ⟨op, payload, route, blob, venue, pair, hop, hpayload, ?_, hroute, hopens, hdenied, hpair,
    hresp, rfl⟩
  cases hallow : checkBinanceRequestAllow op payload with
  | error reason => simp [hallow] at hcheck
  | ok u => rfl

theorem handleSignBinanceRequest_of_opens {op payload venue : String} {route : String × String}
    {blob : Opened} {pair : KeySecret} (hop : req.op = some op) (hpayload : req.payload = some payload)
    (hallow : checkBinanceRequestAllow op payload = .ok ())
    (hroute : binanceRequestMethodPath op = some route)
    (hopens : Opens env amb (stampRoute req route) identity s blob venue s')
    (hdenied : binanceRequestOrderDeniedForCapped op blob.policy = false)
    (hpair : env.keySecretFromValue blob.secretJson = some pair) (hcomplete : pair.isComplete = true) :
    ∃ resp, (handleSignBinanceRequest env amb req identity).Returns s resp s'
      (signTrace identity venue blob none (.hmac pair.secret (binanceCanonical payload ""))) := by
  simp only [handleSignBinanceRequest, returns_ofOption_bind, returns_ofExcept_bind,
    returns_ensure_bind, returns_openBlob_bind, returns_completeSecret_bind,
    returns_releaseHeaders]
  exact ⟨_, op, hop, payload, hpayload, (), by rw [hallow]; rfl, route, hroute, blob, venue, s', _,
    hopens, ⟨hdenied, pair, ⟨hpair, hcomplete⟩, rfl, rfl, rfl⟩, rfl⟩

theorem handleSignBinanceOrder_signs
    {resp : SignResponse} (h : (handleSignBinanceOrder env amb req identity).Returns s resp s' t) :
    ∃ order ts blob venue query pair s₁ intent, req.order = some order ∧ req.timestampMs = some ts ∧
      Opens env amb req identity s blob venue s₁ ∧
      enforceOrderCap blob.policy order.symbol (some order.qty) order.price = .ok () ∧
      CoversOrder env s₁ blob.policy identity "binance" .signBinanceOrder ts order intent ∧
      buildBinanceOrderQuery order = some query ∧
      env.keySecretFromValue blob.secretJson = some pair ∧
      t = signTrace identity venue blob intent
        (.hmac pair.secret (binanceCanonical (binanceFullQuery ts query) "")) := by
  simp only [handleSignBinanceOrder, returns_ofOption_bind, returns_openBlob_bind,
    returns_underPolicy_bind] at h
  obtain ⟨order, horder, ts, hts, blob, venue, s₁, t₁, hopens, ⟨_, hcap, h⟩, rfl⟩ := h
  obtain ⟨_, s₂, ti, t₂, hintent, hrelease, rfl⟩ := returns_bind.mp h
  simp only [returns_ofOption_bind, returns_completeSecret_bind,
    returns_releaseCanonical] at hrelease
  obtain ⟨query, hquery, pair, ⟨hpair, -⟩, -, rfl, rfl⟩ := hrelease
  obtain ⟨intent, rfl, hcovers⟩ :=
    enforceAgentIntentOrder_returns (returns_mapError.mp hintent)
  exact ⟨order, ts, blob, venue, query, pair, s₁, intent, horder, hts, hopens, hcap, hcovers,
    hquery, hpair, rfl⟩

theorem handleSignBinanceCancel_signs
    {resp : SignResponse} (h : (handleSignBinanceCancel env amb req identity).Returns s resp s' t) :
    ∃ cancel ts blob venue query pair s₁ intent, req.cancel = some cancel ∧
      req.timestampMs = some ts ∧
      Opens env amb req identity s blob venue s₁ ∧
      enforceOrderCap blob.policy cancel.symbol none none = .ok () ∧
      CoversCancel env s₁ blob.policy identity "binance" .signBinanceCancel ts req.intentNonce cancel
        intent ∧
      buildBinanceCancelQuery cancel = some query ∧
      env.keySecretFromValue blob.secretJson = some pair ∧
      t = signTrace identity venue blob intent
        (.hmac pair.secret (binanceCanonical (binanceFullQuery ts query) "")) := by
  simp only [handleSignBinanceCancel, returns_ofOption_bind, returns_openBlob_bind,
    returns_underPolicy_bind] at h
  obtain ⟨cancel, hcancel, ts, hts, blob, venue, s₁, t₁, hopens, ⟨_, hcap, h⟩, rfl⟩ := h
  obtain ⟨_, s₂, ti, t₂, hintent, hrelease, rfl⟩ := returns_bind.mp h
  simp only [returns_ofOption_bind, returns_completeSecret_bind,
    returns_releaseCanonical] at hrelease
  obtain ⟨query, hquery, pair, ⟨hpair, -⟩, -, rfl, rfl⟩ := hrelease
  obtain ⟨intent, rfl, hcovers⟩ :=
    enforceAgentIntentCancel_returns (returns_mapError.mp hintent)
  exact ⟨cancel, ts, blob, venue, query, pair, s₁, intent, hcancel, hts, hopens, hcap, hcovers,
    hquery, hpair, rfl⟩

end

end Signer
