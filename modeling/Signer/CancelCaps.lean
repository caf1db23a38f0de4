import Signer.IntentCoverage

/-!
# Cancels under order caps

The structured cancels look their symbol up in the order caps. The generic Binance routes
keep cancels available to a capped key and read no symbol: what they bound is the shape of
the cancel. The generic OKX route signs reads only.
-/

namespace Signer

open Text

namespace Text

def stringsAfter (name : String) : List String → List String
  | key :: sep :: value :: rest =>
    if key = name ∧ sep = ":" then value :: stringsAfter name (sep :: value :: rest)
    else stringsAfter name (sep :: value :: rest)
  | _ => []

def memberStrings (name text : String) : List String := stringsAfter name (split '\"' text)

end Text

/-- The caps have an entry for the symbol. -/
def Listed (caps : List OrderAssetCap) (symbol : String) : Prop := ∃ cap ∈ caps, cap.symbol = symbol

theorem listed_of_enforceOrderCap {p : Policy} {caps : List OrderAssetCap} {symbol : String}
    (hcaps : p.orderCaps = some caps) (h : enforceOrderCap (some p) symbol none none = .ok ()) :
    Listed caps symbol := by
  simp only [enforceOrderCap, Option.bind_some, hcaps] at h
  cases hfind : caps.find? fun c => c.symbol = symbol with
  | none => simp [hfind] at h
  | some entry =>
    exact ⟨entry, List.mem_of_find?_eq_some hfind, by simpa using List.find?_some hfind⟩

/-! ### The structured cancels -/

theorem values_signedCancel (ts : UInt64) {c : CancelRequest} {q : String}
    (h : buildBinanceCancelQuery c = some q) :
    values "symbol" (binanceCanonical (binanceFullQuery ts q) "") = [c.symbol] ∧
      values "orderId" (binanceCanonical (binanceFullQuery ts q) "") = [c.orderId] := by
  obtain ⟨hsymbol, horder, rfl⟩ := buildBinanceCancelQuery_eq h
  have hamp : ∀ pair ∈ [("symbol", c.symbol), ("orderId", c.orderId)],
      NoAmp pair.1 ∧ NoAmp pair.2 := by
    simpa [NoAmp] using
      And.intro (noAmp_of_isSafeParamValue hsymbol) (noAmp_of_isSafeParamValue horder)
  rw [values_signedPairs ts hamp (by simp), values_signedPairs ts hamp (by simp)]
  simp [binanceTail]

theorem memberStrings_okxCancel (ts : UInt64) {c : CancelRequest} {body : String}
    (h : buildOkxCancelBody c = some body) :
    let text := okxCanonical (okxIso8601FromMs ts) "POST" "/api/v5/trade/cancel-order" body
    memberStrings "instId" text = [c.symbol] ∧
    memberStrings "ordId" text = [c.orderId] := by
  obtain ⟨-, -, hquotes⟩ := split_okxCancel ts h
  simp [memberStrings, hquotes, stringsAfter]

/-! ### The generic routes -/

theorem singleFilter_of_binanceDelete {path q : String}
    (h : binanceCappedOpAllowed "DELETE" path q = true) : singleFilter q "symbol" = true := by
  unfold binanceCappedOpAllowed at h
  split at h
  case h_6 => exact h
  case h_7 => cases h
  all_goals simp_all

theorem values_genericDelete {path query body : String} (ts : UInt64)
    (h : genericCappedOpAllowed "binance" "DELETE" path query body = true) :
    (values "symbol" (binanceCanonical (binanceFullQuery ts query) body)).length ≤ 1 := by
  obtain ⟨rfl, -⟩ := genericCappedOpAllowed_binance h
  obtain ⟨pairs, hpairs, hamp, hnames, hlength⟩ : ∃ pairs, query = formEncode pairs ∧
      (∀ pair ∈ pairs, NoAmp pair.1 ∧ NoAmp pair.2) ∧
      (∀ pair ∈ pairs, '=' ∉ pair.1.toList) ∧ pairs.length ≤ 1 := by
    by_cases hmark : '?' ∈ path.toList
    · refine ⟨[], ?_, by simp, by simp, by simp⟩
      by_contra hne
      have hquery : query ≠ "" := hne
      simp [genericCappedOpAllowed, hmark, hquery] at h
    · have hfilter : singleFilter query "symbol" = true := by
        apply singleFilter_of_binanceDelete
        simpa [genericCappedOpAllowed, splitQuery, splitOnce, hmark] using h
      obtain ⟨v, hv, rfl⟩ := singleFilter_eq hfilter
      refine ⟨[("symbol", v)], ?_, ?_, by simp, by simp⟩
      · exact (formEncode_singleton _).symm
      · simpa [NoAmp] using noAmp_of_isToken hv
  rw [hpairs, values_signedPairs ts hamp hnames, List.length_map, List.filter_append,
    List.length_append]
  have htail : ((binanceTail ts).filter fun pair => pair.1 = "symbol") = [] := by simp [binanceTail]
  rw [htail]
  have hfilter := List.length_filter_le (fun pair : String × String => pair.1 = "symbol") pairs
  simp only [List.length_nil]
  omega

/-! ### All routes -/

section

variable {env : Env} {amb : Ambient} {req : SignRequest} {identity : ResolvedIdentity}
  {s s' : Enclave} {resp : SignResponse} {t : List Event}

/-- What a route signs under a policy with order caps. A structured cancel names one symbol
or instrument, and the caps list it. The generic OKX route signs no cancel. The generic
Binance routes sign cancels whatever symbol they name: a deletion with at most one symbol,
a named operation with its own parameters. -/
theorem capped_cancel_symbols {p : Policy} {caps : List OrderAssetCap} {text : String}
    (hrun : (dispatch env amb req identity).Returns s resp s' t)
    (hpolicy : some p ∈ acceptedPolicies t) (hcaps : p.orderCaps = some caps)
    (hsigned : text ∈ hmacTexts t) :
    (req.action = .signBinanceCancel →
      ∃ symbol, values "symbol" text = [symbol] ∧ Listed caps symbol) ∧
    (req.action = .signOkxCancel →
      ∃ instId, memberStrings "instId" text = [instId] ∧ Listed caps instId) ∧
    (req.action = .signOkx → req.method = some "GET") ∧
    (req.action = .signBinance → req.method = some "DELETE" →
      (values "symbol" text).length ≤ 1) ∧
    (req.action = .signBinanceRequest → ∃ op allowed, req.op = some op ∧ op ≠ "order" ∧
      binanceRequestAllowedParams op = some allowed ∧ NamesIn allowed text) := by
  refine ⟨fun haction => ?_, fun haction => ?_, fun haction => ?_, fun haction hmethod => ?_,
    fun haction => ?_⟩ <;> simp only [dispatch, haction] at hrun
  · obtain ⟨cancel, ts, blob, _, query, _, _, _, -, -, -, hcap, -, hquery, -, rfl⟩ :=
      handleSignBinanceCancel_signs hrun
    have hp : some p = blob.policy := by simpa using hpolicy
    obtain ⟨_, ⟨⟩⟩ := mem_hmacTexts_signTrace.mp hsigned
    exact ⟨cancel.symbol, (values_signedCancel ts hquery).1,
      listed_of_enforceOrderCap hcaps (by rwa [hp])⟩
  · obtain ⟨cancel, ts, blob, _, body, _, _, _, -, -, -, hcap, -, hbody, -, rfl⟩ :=
      handleSignOkxCancel_signs hrun
    have hp : some p = blob.policy := by simpa using hpolicy
    obtain ⟨_, ⟨⟩⟩ := mem_hmacTexts_signTrace.mp hsigned
    exact ⟨cancel.symbol, (memberStrings_okxCancel ts hbody).1,
      listed_of_enforceOrderCap hcaps (by rwa [hp])⟩
  · obtain ⟨method, _, _, _, blob, _, _, hmethod, -, -, -, -, -, hgate, -, rfl⟩ :=
      handleSignOkx_signs hrun
    have hp : some p = blob.policy := by simpa using hpolicy
    rw [hmethod, (genericCappedOpAllowed_okx (hgate (by simp [← hp, hcaps]))).1]
  · obtain ⟨method, _, ts, blob, _, _, hgiven, -, -, -, -, hgate, -, -, rfl⟩ :=
      handleSignBinance_signs.mp ⟨resp, hrun⟩
    have hp : some p = blob.policy := by simpa using hpolicy
    obtain ⟨_, ⟨⟩⟩ := mem_hmacTexts_signTrace.mp hsigned
    obtain rfl : method = "DELETE" := by simpa [hgiven] using hmethod
    exact values_genericDelete ts (hgate (by simp [← hp, hcaps]))
  · obtain ⟨op, payload, _, blob, _, _, hop, -, hallow, -, -, hdenied, -, -, rfl⟩ :=
      handleSignBinanceRequest_signs hrun
    have hp : some p = blob.policy := by simpa using hpolicy
    obtain ⟨_, ⟨⟩⟩ := mem_hmacTexts_signTrace.mp hsigned
    obtain ⟨allowed, hallowed, hnames⟩ := checkBinanceRequestAllow_ok hallow
    refine ⟨op, allowed, hop, ?_, hallowed, ?_⟩
    · rintro rfl
      simp [binanceRequestOrderDeniedForCapped, ← hp, hcaps] at hdenied
    · rwa [binanceCanonical, String.append_empty]

end

namespace Sample

def cancelOrder : SignRequest :=
  { request .signBinanceCancel with cancel := some { symbol := "BTCUSDT", orderId := "7" } }

def cancelOrderText : String :=
  "symbol=BTCUSDT&orderId=7&timestamp=1700000000000&recvWindow=5000"

def namedCancel (op payload : String) : SignRequest :=
  { request .signBinanceRequest with op := some op, payload := some payload }

def genericCancelAll (symbol : String) : SignRequest :=
  { request .signBinance with
    method := some "DELETE", path := some "/fapi/v1/allOpenOrders",
    query := some (formPiece ("symbol", symbol)), body := some "" }

end Sample

open Sample in
/-- The sample cancel is signed, and the caps list its symbol. -/
theorem capped_cancel_symbols_listed :
    ∃ symbol, values "symbol" cancelOrderText = [symbol] ∧
      Listed [OrderAssetCap.mk "BTCUSDT" "0.5" (some "40000")] symbol := by
  obtain ⟨resp, s', t, hrun, hpolicy, hsigned⟩ : ∃ resp s' t,
      (dispatch (env cappedBlob) {} cancelOrder
        (identity ["binance"] .active)).Returns {} resp s' t ∧
      some cappedPolicy ∈ acceptedPolicies t ∧ cancelOrderText ∈ hmacTexts t :=
    Proc.exists_returns_of_run (by decide +kernel)
  exact (capped_cancel_symbols hrun hpolicy rfl hsigned).1 rfl

open Sample in
/-- Under caps for one symbol, the generic Binance routes sign cancels of another: of one
order, and of all orders, through the route for named operations, and of all orders through
the generic route. -/
theorem generic_cancel_unlisted :
    (∃ resp s' t, (dispatch (env cappedBlob) {}
          (namedCancel "cancel" "symbol=ETHUSDT&orderId=7&timestamp=1700000000000")
          (identity ["binance"] .active)).Returns {} resp s' t ∧
        some cappedPolicy ∈ acceptedPolicies t ∧
        "symbol=ETHUSDT&orderId=7&timestamp=1700000000000" ∈ hmacTexts t) ∧
      (∃ resp s' t, (dispatch (env cappedBlob) {}
          (namedCancel "allOpenOrders" "symbol=ETHUSDT&timestamp=1700000000000")
          (identity ["binance"] .active)).Returns {} resp s' t ∧
        some cappedPolicy ∈ acceptedPolicies t ∧
        "symbol=ETHUSDT&timestamp=1700000000000" ∈ hmacTexts t) ∧
      (∃ resp s' t, (dispatch (env cappedBlob) {}
          (genericCancelAll "ETHUSDT") (identity ["binance"] .active)).Returns {} resp s' t ∧
        some cappedPolicy ∈ acceptedPolicies t ∧
        "symbol=ETHUSDT&timestamp=1700000000000&recvWindow=5000" ∈ hmacTexts t) ∧
      "ETHUSDT" ∉ (cappedPolicy.orderCaps.getD []).map OrderAssetCap.symbol :=
  ⟨Proc.exists_returns_of_run (by decide +kernel), Proc.exists_returns_of_run (by decide +kernel),
    Proc.exists_returns_of_run (by decide +kernel), by decide⟩

end Signer
