import Signer.Gateway.TenantState
import Signer.ReceiptCoverage

/-!
# Two kill switches

A customer that may only cancel is held back twice: by the gateway, which reads its own table, and
by the enclave, which reads the mode in the signed registry. On the route for named Binance
operations the gateway lets through what it lists, and the enclave whatever is no order. Three
operations of the enclave's table are in between.
-/

namespace Signer

namespace Gateway

inductive RouteClass where
  | order
  | cancel
  | read
  | moneyMoving
  | bodyDecides
  | exempt
  | unknown
  deriving DecidableEq, Repr

inductive DenyCode where
  | tenantCancelOnly
  | tenantHalted
  deriving DecidableEq, Repr

/-- `decide`: what the state of a customer makes of a route. -/
def decideRoute (state : TenantState) (route : RouteClass) : Except DenyCode Unit :=
  match state with
  | .active => .ok ()
  | .cancelOnly =>
    match route with
    | .cancel | .read | .exempt | .bodyDecides => .ok ()
    | .order | .moneyMoving | .unknown => .error .tenantCancelOnly
  | .halted =>
    match route with
    | .exempt => .ok ()
    | _ => .error .tenantHalted

def classifyBinanceOp : String → RouteClass
  | "order" => .order
  | "cancel" | "allOpenOrders" => .cancel
  | "account" | "positionRisk" | "openOrders" | "orderStatus" | "userTrades" | "income" => .read
  | _ => .unknown

end Gateway

def unlistedOps : List String := ["leverage", "positionMode", "listenKey"]

/-- The enclave signs nothing for the operation in cancel-only mode. -/
def RefusedInCancelOnly (op payload : String) : Prop :=
  ∀ env amb req identity s served s', req.action = .signBinanceRequest → req.op = some op →
    req.payload = some payload → resolveIdentity env req s = some identity →
    identity.mode = .cancelOnly → handle env amb req s = (served, s') →
    ¬ (served.answered = true ∧ hmacTexts served.trace ≠ [])

theorem op_of_binanceRequestMethodPath {op : String} {route : String × String}
    (h : binanceRequestMethodPath op = some route) :
    Gateway.decideRoute .cancelOnly (Gateway.classifyBinanceOp op) = .ok () ∨ op = "order" ∨
      op ∈ unlistedOps := by
  unfold binanceRequestMethodPath at h
  split at h
  case h_13 => cases h
  all_goals decide

theorem refused_of_mem_unlistedOps {op : String} (h : op ∈ unlistedOps) :
    Gateway.decideRoute .cancelOnly (Gateway.classifyBinanceOp op) ≠ .ok () := by
  revert op
  decide

theorem listed_or_unlisted_of_signs {env : Env} {amb : Ambient} {req : SignRequest}
    {identity : ResolvedIdentity} {s s' : Enclave} {served : Served} {op payload : String}
    (haction : req.action = .signBinanceRequest) (hop : req.op = some op)
    (hpayload : req.payload = some payload) (hidentity : resolveIdentity env req s = some identity)
    (hmode : identity.mode = .cancelOnly) (hserved : handle env amb req s = (served, s'))
    (hanswered : served.answered = true) (hsigned : hmacTexts served.trace ≠ []) :
    Gateway.decideRoute .cancelOnly (Gateway.classifyBinanceOp op) = .ok () ∨
      op ∈ unlistedOps ∧ checkBinanceRequestAllow op payload = .ok () := by
  have htrace : served.trace ≠ [] := by
    rintro h
    rw [h] at hsigned
    exact hsigned rfl
  obtain ⟨identity', limiter, resp, s₁, hidentity', hgate, hrun⟩ :=
    handle_answered hserved hanswered htrace
  obtain rfl : identity = identity' := Option.mem_unique hidentity hidentity'
  have hroute : dispatch env amb req identity = handleSignBinanceRequest env amb req identity := by
    simp only [dispatch, haction]
  rw [hroute] at hrun
  obtain ⟨op', payload', route, _, _, _, hop', hpayload', hallow, hpath, -⟩ :=
    handleSignBinanceRequest_signs hrun
  obtain rfl : op = op' := Option.mem_unique hop hop'
  obtain rfl : payload = payload' := Option.mem_unique hpayload hpayload'
  rcases op_of_binanceRequestMethodPath hpath with hlisted | rfl | hunlisted
  · exact .inl hlisted
  · -- an order does not pass the mode gate
    have hrefuses : cancelOnlyAllows req = false := by
      have htrim : Text.trim "order" = "order" := by decide
      have hname : Text.endsWith Action.signBinanceRequest.name "_cancel" = false := by decide
      simp [cancelOnlyAllows, haction, hop, htrim, hname]
    rw [tenantModeGate, hmode] at hgate
    simp [hrefuses] at hgate
  · exact .inr ⟨hunlisted, hallow⟩

/-! ### The three operations -/

namespace Sample

def namedOp (op payload : String) : SignRequest :=
  { request .signBinanceRequest with op := some op, payload := some payload }

theorem opens_namedOp (op payload : String) (route : String × String) :
    ∃ blob venue s', Opens (env bareBlob) {} (stampRoute (namedOp op payload) route)
        (identity ["binance"] .cancelOnly)
        { enclave ["binance"] .cancelOnly with
          limiter := (checkRate (env bareBlob) {} (namedOp op payload)
            (enclave ["binance"] .cancelOnly)).2 } blob venue s' ∧
      blob.secretJson = hmacSecret :=
  ⟨{ policy := none, secretJson := hmacSecret, policyHash := none }, "binance", _,
    ⟨rfl, rfl, rfl⟩, rfl⟩

end Sample

theorem not_refusedInCancelOnly {op payload : String} (hop : op ∈ unlistedOps)
    (hallow : checkBinanceRequestAllow op payload = .ok ()) : ¬ RefusedInCancelOnly op payload := by
  have hroutes : ∀ op ∈ unlistedOps, op ≠ "order" ∧ Text.trim op ≠ "order" ∧
      (binanceRequestMethodPath op).isSome = true := by decide
  obtain ⟨hne, htrim, hroute⟩ := hroutes op hop
  obtain ⟨route, hroute⟩ := Option.isSome_iff_exists.mp hroute
  obtain ⟨blob, venue, s', hopens, hsecret⟩ := Sample.opens_namedOp op payload route
  have hpair : (Sample.env Sample.bareBlob).keySecretFromValue blob.secretJson =
      some { key := "sample-key", secret := "sample-secret" } := by
    rw [hsecret]
    rfl
  obtain ⟨resp, hrun⟩ := handleSignBinanceRequest_of_opens rfl rfl hallow hroute hopens
    (by simp [binanceRequestOrderDeniedForCapped, hne]) hpair (by decide)
  have hgate : tenantModeGate (Sample.identity ["binance"] .cancelOnly)
      (Sample.namedOp op payload) = .ok () := by
    have hallows : cancelOnlyAllows (Sample.namedOp op payload) = true := by
      simp [cancelOnlyAllows, Sample.namedOp, Sample.request, htrim]
    simp [tenantModeGate, Sample.identity, hallows]
  have hversion : requiredProtoVersion ≤ (Sample.namedOp op payload).protoVersion :=
    UInt8.le_refl 1
  have haction : isReceiptedAction (Sample.namedOp op payload).action = true := by
    change isReceiptedAction .signBinanceRequest = true
    decide
  -- the limiter looks at the caller only
  have hrate : (checkRate (Sample.env Sample.bareBlob) {} (Sample.namedOp op payload)
      (Sample.enclave ["binance"] .cancelOnly)).1 = true := by
    change (checkRate (Sample.env Sample.bareBlob) {} (Sample.namedOp "" "")
      (Sample.enclave ["binance"] .cancelOnly)).1 = true
    decide +kernel
  obtain ⟨hanswered, htrace⟩ := handle_of_returns haction hversion rfl hrate hgate hrun
  rcases hserved : handle (Sample.env Sample.bareBlob) {} (Sample.namedOp op payload)
    (Sample.enclave ["binance"] .cancelOnly) with ⟨served, s₁⟩
  rw [hserved] at hanswered htrace
  intro hrefused
  refine hrefused _ _ _ (Sample.identity ["binance"] .cancelOnly) _ served s₁ rfl rfl rfl rfl rfl
    hserved ⟨hanswered, ?_⟩
  rw [htrace]
  simp [hmacTexts, signTrace]

/-- Whatever operation and payload the gateway refuses to a customer that may only cancel, the
enclave refuses in cancel-only mode, exactly if the operation is not one of the three with a
payload that is allowed for it. -/
theorem enclave_refuses_what_gateway_refuses_iff (op payload : String) :
    (Gateway.decideRoute .cancelOnly (Gateway.classifyBinanceOp op) ≠ .ok () →
      RefusedInCancelOnly op payload) ↔
      ¬ (op ∈ unlistedOps ∧ checkBinanceRequestAllow op payload = .ok ()) := by
  constructor
  · rintro h ⟨hop, hallow⟩
    exact not_refusedInCancelOnly hop hallow (h (refused_of_mem_unlistedOps hop))
  · intro h hrefused env amb req identity s served s' haction hop hpayload hidentity hmode hserved
      ⟨hanswered, hsigned⟩
    rcases listed_or_unlisted_of_signs haction hop hpayload hidentity hmode hserved hanswered
      hsigned with hlisted | hunlisted
    · exact hrefused hlisted
    · exact h hunlisted

/-- A customer that may only cancel raises its leverage: the gateway refuses, and the enclave
signs. -/
theorem leverage_signed_in_cancelOnly :
    Gateway.decideRoute .cancelOnly (Gateway.classifyBinanceOp "leverage") =
        .error .tenantCancelOnly ∧
      ¬ RefusedInCancelOnly "leverage" "symbol=BTCUSDT&leverage=125&timestamp=1700000000000" :=
  ⟨rfl, not_refusedInCancelOnly (by decide) (by decide +kernel)⟩

end Signer
