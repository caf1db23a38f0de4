import Signer.CanonicalText
import Signer.Sample

/-!
# No way around the Binance caps

Binance signs nothing but parameters, so they decide what a signature can be used for.
-/

namespace Signer

open Text

def orderShapingNames : List String :=
  ["side", "type", "quantity", "price", "stopPrice", "closePosition", "reduceOnly"]

/-- The text has a parameter that makes or shapes an order. -/
def ShapesOrder (text : String) : Prop :=
  ∃ piece ∈ pieces text, pieceName piece ∈ orderShapingNames

theorem not_shapesOrder {names : List String} {text : String} (h : NamesIn names text)
    (hdisjoint : ∀ name ∈ orderShapingNames, name ∉ names) : ¬ ShapesOrder text := by
  rintro ⟨piece, hpiece, hname⟩
  rcases h piece hpiece with rfl | hmem
  · exact absurd hname (by decide)
  · exact hdisjoint _ hname hmem

theorem allowedParams_disjoint {op : String} {allowed : List String}
    (hallowed : binanceRequestAllowedParams op = some allowed) (hop : op ≠ "order") :
    ∀ name ∈ orderShapingNames, name ∉ allowed := by
  unfold binanceRequestAllowedParams at hallowed
  split at hallowed <;> first | exact absurd rfl hop | cases hallowed <;> decide

theorem name_of_mem_binanceOrderPairs {o : OrderRequest} {side ordType : String}
    {price coid : Option String} {pair : String × String}
    (h : pair ∈ binanceOrderPairs o side ordType price coid) : '=' ∉ pair.1.toList := by
  rcases mem_binanceOrderPairs.mp h with h | ⟨px, -, h⟩ | ⟨-, rfl⟩ | ⟨id, -, rfl⟩
  · simp only [List.mem_cons, List.not_mem_nil, or_false] at h
    rcases h with rfl | rfl | rfl | rfl <;> simp
  · simp only [List.mem_cons, List.not_mem_nil, or_false] at h
    rcases h with rfl | rfl <;> simp
  · simp
  · simp

theorem values_signedOrder {o : OrderRequest} {q : String} (ts : UInt64)
    (h : buildBinanceOrderQuery o = some q) :
    values "symbol" (binanceCanonical (binanceFullQuery ts q) "") = [o.symbol] ∧
      values "quantity" (binanceCanonical (binanceFullQuery ts q) "") = [o.qty] ∧
      ∀ px, o.price = some px →
        values "type" (binanceCanonical (binanceFullQuery ts q) "") = ["LIMIT"] ∧
        values "price" (binanceCanonical (binanceFullQuery ts q) "") = [px] := by
  obtain ⟨side, ordType, needsPrice, price, coid, hsymbol, hqty, hside, htype, hprice, hcoid,
    rfl⟩ :=
    buildBinanceOrderQuery_eq h
  obtain ⟨rfl, hneeds, hsafe⟩ := orderPrice_eq hprice
  obtain ⟨rfl, hid⟩ := orderClientId_eq hcoid
  have hvalues := values_signedPairs ts
    (noAmp_binanceOrderPairs hsymbol hqty hside htype hsafe hid)
    fun pair hpair => name_of_mem_binanceOrderPairs hpair
  simp only [hvalues]
  refine ⟨?_, ?_, ?_⟩
  · cases o.price <;> cases o.clientOrderId <;> by_cases hr : o.reduceOnly = true <;>
      simp [binanceOrderPairs, binanceTail, hr]
  · cases o.price <;> cases o.clientOrderId <;> by_cases hr : o.reduceOnly = true <;>
      simp [binanceOrderPairs, binanceTail, hr]
  · intro px hpx
    have hlimit : ordType = "LIMIT" := by
      rw [hpx] at hneeds
      unfold binanceOrderType at htype
      split at htype <;> simp_all
    constructor <;> cases o.clientOrderId <;> by_cases hr : o.reduceOnly = true <;>
      simp [binanceOrderPairs, binanceTail, hr, hpx, hlimit]

theorem not_shapesOrder_generic {method path query body : String} {ts : UInt64}
    (h : genericCappedOpAllowed "binance" method path query body = true) :
    ¬ ShapesOrder (binanceCanonical (binanceFullQuery ts query) body) := by
  obtain ⟨rfl, hnames⟩ := genericCappedOpAllowed_binance h
  rw [binanceCanonical, String.append_empty]
  exact not_shapesOrder (namesIn_binanceFullQuery hnames) (by decide)

theorem not_shapesOrder_request {op payload : String} {p : Policy}
    (hallow : checkBinanceRequestAllow op payload = .ok ()) (hcaps : p.orderCaps.isSome = true)
    (hdenied : binanceRequestOrderDeniedForCapped op (some p) = false) :
    ¬ ShapesOrder (binanceCanonical payload "") := by
  obtain ⟨allowed, hallowed, hnames⟩ := checkBinanceRequestAllow_ok hallow
  have hop : op ≠ "order" := by
    rintro rfl
    simp [binanceRequestOrderDeniedForCapped, hcaps] at hdenied
  rw [binanceCanonical, String.append_empty]
  exact not_shapesOrder hnames (allowedParams_disjoint hallowed hop)

theorem not_shapesOrder_cancel {c : CancelRequest} {q : String} {ts : UInt64}
    (h : buildBinanceCancelQuery c = some q) :
    ¬ ShapesOrder (binanceCanonical (binanceFullQuery ts q) "") := by
  rw [binanceCanonical, String.append_empty]
  exact not_shapesOrder (namesIn_binanceFullQuery (namesIn_buildBinanceCancelQuery h)) (by decide)

/-- Whatever a Binance route signs under a policy with order caps, a string that carries a
parameter making or shaping an order is a structured order: it names one symbol and one
quantity, the symbol has an entry, the quantity is within it, and where the entry caps the
notional it is a limit order whose one price keeps the notional within the cap. -/
theorem binance_signature_within_caps {env : Env} {amb : Ambient} {req : SignRequest}
    {identity : ResolvedIdentity} {s s' : Enclave} {resp : SignResponse} {t : List Event}
    {p : Policy} {caps : List OrderAssetCap} {text : String}
    (hvenue : venueForAction req.action = some "binance")
    (hrun : (dispatch env amb req identity).Returns s resp s' t)
    (hpolicy : some p ∈ acceptedPolicies t) (hcaps : p.orderCaps = some caps)
    (hsigned : text ∈ hmacTexts t) (hshapes : ShapesOrder text) :
    req.action = .signBinanceOrder ∧
      ∃ symbol qty entry, values "symbol" text = [symbol] ∧
        values "quantity" text = [qty] ∧
        caps.find? (fun c => c.symbol = symbol) = some entry ∧ DecimalLE qty entry.maxQty ∧
        ∀ cap, entry.maxNotional = some cap →
          values "type" text = ["LIMIT"] ∧ ∃ px, values "price" text = [px] ∧
            isDecimal px = true ∧ isDecimal cap = true ∧
            decimalValue qty * decimalValue px ≤ decimalValue cap := by
  cases haction : req.action <;> simp only [haction, venueForAction, reduceCtorEq,
    Option.some.injEq, String.reduceEq] at hvenue <;> simp only [dispatch, haction] at hrun
  case signBinance =>
    obtain ⟨method, body, ts, blob, _, pair, -, -, -, -, -, hgate, -, -, rfl⟩ :=
      handleSignBinance_signs.mp ⟨resp, hrun⟩
    have hp : some p = blob.policy := by simpa using hpolicy
    obtain ⟨_, ⟨⟩⟩ := mem_hmacTexts_signTrace.mp hsigned
    exact absurd hshapes (not_shapesOrder_generic (hgate (by simp [← hp, hcaps])))
  case signBinanceRequest =>
    obtain ⟨op, payload, route, blob, _, pair, -, -, hallow, -, -, hdenied, -, -, rfl⟩ :=
      handleSignBinanceRequest_signs hrun
    have hp : some p = blob.policy := by simpa using hpolicy
    obtain ⟨_, ⟨⟩⟩ := mem_hmacTexts_signTrace.mp hsigned
    rw [← hp] at hdenied
    exact absurd hshapes (not_shapesOrder_request hallow (by simp [hcaps]) hdenied)
  case signBinanceCancel =>
    obtain ⟨cancel, ts, blob, _, query, pair, s₁, intent, -, -, -, -, -, hquery, -, rfl⟩ :=
      handleSignBinanceCancel_signs hrun
    obtain ⟨_, ⟨⟩⟩ := mem_hmacTexts_signTrace.mp hsigned
    exact absurd hshapes (not_shapesOrder_cancel hquery)
  case signBinanceOrder =>
    obtain ⟨order, ts, blob, _, query, pair, s₁, intent, -, -, -, hcap, -, hquery, -, rfl⟩ :=
      handleSignBinanceOrder_signs hrun
    have hp : some p = blob.policy := by simpa using hpolicy
    obtain ⟨_, ⟨⟩⟩ := mem_hmacTexts_signTrace.mp hsigned
    rw [← hp] at hcap
    obtain ⟨entry, hentry, hwithin⟩ := enforceOrderCap_ok hcaps hcap
    obtain ⟨hsymbol, hqty, hprice⟩ := values_signedOrder ts hquery
    refine ⟨rfl, order.symbol, order.qty, entry, hsymbol, hqty, hentry, hwithin.size, ?_⟩
    intro cap hcap
    obtain ⟨px, hpx, hdecimal⟩ := hwithin.notional cap hcap
    exact ⟨(hprice px hpx).1, px, (hprice px hpx).2, hdecimal⟩

open Sample in
/-- The sample order is signed, and its string is within the cap. -/
theorem binance_signature_within_caps_limitOrder :
    ∃ symbol qty entry, values "symbol" limitOrderText = [symbol] ∧
      values "quantity" limitOrderText = [qty] ∧
      [OrderAssetCap.mk "BTCUSDT" "0.5" (some "40000")].find? (fun c => c.symbol = symbol) =
        some entry ∧ DecimalLE qty entry.maxQty ∧
      ∀ cap, entry.maxNotional = some cap →
        values "type" limitOrderText = ["LIMIT"] ∧
          ∃ px, values "price" limitOrderText = [px] ∧
          isDecimal px = true ∧ isDecimal cap = true ∧
          decimalValue qty * decimalValue px ≤ decimalValue cap := by
  obtain ⟨resp, s', t, hrun, hpolicy, hsigned⟩ : ∃ resp s' t, (dispatch (env cappedBlob) {}
      limitOrder (identity ["binance"] .active)).Returns {} resp s' t ∧
      some cappedPolicy ∈ acceptedPolicies t ∧ limitOrderText ∈ hmacTexts t :=
    Proc.exists_returns_of_run (by decide +kernel)
  have hshapes : ShapesOrder limitOrderText := by
    unfold ShapesOrder
    decide +kernel
  exact (binance_signature_within_caps rfl hrun hpolicy rfl hsigned hshapes).2

/-! ### Named operations -/

def fundsNames : List String := ["coin", "address", "amount", "asset", "fromSymbol"]

theorem fundsNames_disjoint {op : String} {allowed : List String}
    (hallowed : binanceRequestAllowedParams op = some allowed) :
    ∀ name ∈ fundsNames, name ∉ allowed := by
  unfold binanceRequestAllowedParams at hallowed
  split at hallowed <;> cases hallowed <;> decide

theorem handleSignBinanceRequest_ignores_route (env : Env) (amb : Ambient) (req : SignRequest)
    (identity : ResolvedIdentity) (method path : Option String) :
    handleSignBinanceRequest env amb { req with method, path } identity =
      handleSignBinanceRequest env amb req identity := rfl

/-- Where the route for named operations signs, it signs the payload as it stands, every piece of
it has a name from the list of the operation, and the policy was asked about the method and the
path of the operation, whatever the caller put into the request. -/
theorem binance_request_signs_listed_parameters {env : Env} {amb : Ambient} {req : SignRequest}
    {identity : ResolvedIdentity} {s s' : Enclave} {resp : SignResponse} {t : List Event}
    (h : (handleSignBinanceRequest env amb req identity).Returns s resp s' t) :
    ∃ op payload allowed method path blob venue pair, req.op = some op ∧
      req.payload = some payload ∧ env.keySecretFromValue blob.secretJson = some pair ∧
      t = signTrace identity venue blob none (.hmac pair.secret payload) ∧
      ("signature", hexEncode (hmacText env pair.secret payload)) ∈ resp.headers.getD [] ∧
      binanceRequestAllowedParams op = some allowed ∧
      (∀ piece ∈ pieces payload, piece ≠ "" → pieceName piece ∈ allowed) ∧
      (∀ name ∈ fundsNames, name ∉ allowed) ∧
      binanceRequestMethodPath op = some (method, path) ∧
      (stampRoute req (method, path)).method = some method ∧
      (stampRoute req (method, path)).path = some path ∧
      enforcePolicy env blob.policy (stampRoute req (method, path)) = .ok blob.policyHash ∧
      ∀ m p, handleSignBinanceRequest env amb { req with method := m, path := p } identity =
        handleSignBinanceRequest env amb req identity := by
  obtain ⟨op, payload, ⟨method, path⟩, blob, venue, pair, hop, hpayload, hallow, hroute, hopens, -,
    hpair, rfl, ht⟩ := handleSignBinanceRequest_signs h
  obtain ⟨allowed, hallowed, hnames⟩ := checkBinanceRequestAllow_ok hallow
  rw [binanceCanonical, String.append_empty] at ht
  refine ⟨op, payload, allowed, method, path, blob, venue, pair, hop, hpayload, hpair, ht, ?_, hallowed,
    fun piece hpiece hne => (hnames piece hpiece).resolve_left hne, fundsNames_disjoint hallowed,
    hroute, rfl, rfl, hopens.enforced, handleSignBinanceRequest_ignores_route env amb req identity⟩
  simp [SignResponse.okHeaders, SignResponse.withPolicyHash, binanceRequestHeaders,
    binanceCanonical]

namespace Sample

def openOrdersRequest : SignRequest :=
  { request .signBinanceRequest with
    op := some "openOrders"
    payload := some "symbol=BTCUSDT&timestamp=1700000000000"
    method := some "POST"
    path := some "/sapi/v1/capital/withdraw/apply" }

end Sample

open Sample in
/-- The read is signed, with nothing but a symbol and a time. -/
theorem binance_request_signs_listed_parameters_openOrders :
    ∃ resp s' t, (handleSignBinanceRequest (env cappedBlob) {} openOrdersRequest
        (identity ["binance"] .active)).Returns {} resp s' t ∧
      ∃ payload blob venue, ∃ pair : KeySecret, openOrdersRequest.payload = some payload ∧
        t = signTrace (identity ["binance"] .active) venue blob none (.hmac pair.secret payload) ∧
        ∀ piece ∈ pieces payload, piece ≠ "" →
          pieceName piece ∈ ["symbol", "recvWindow", "timestamp"] := by
  obtain ⟨resp, s', t, hrun, -⟩ : ∃ resp s' t, (handleSignBinanceRequest (env cappedBlob) {}
      openOrdersRequest (identity ["binance"] .active)).Returns {} resp s' t ∧ True :=
    Proc.exists_returns_of_run (by decide +kernel)
  obtain ⟨op, payload, allowed, _, _, blob, venue, pair, hop, hpayload, -, ht, -, hallowed, hnames,
    -⟩ := binance_request_signs_listed_parameters hrun
  obtain rfl : "openOrders" = op := Option.some.inj hop
  obtain rfl : ["symbol", "recvWindow", "timestamp"] = allowed := Option.some.inj hallowed
  exact ⟨resp, s', t, hrun, payload, blob, venue, pair, hpayload, ht, hnames⟩

end Signer
