import Signer.DecimalOrder
import Signer.PolicyRules
import Signer.Text.Form

/-!
# Order caps

A policy with order caps bounds every order by symbol, size and notional. Structured
orders are compared with the caps. The generic routes sign what the caller assembled, so
under caps they are limited to reads and cancels that are spelled out here, whose
parameters cannot make an order.
-/

namespace Signer

open Text

variable {allowed required : List String} {q key method path : String}

/-- A size against its cap. An oversized order is refused with `exceeded`, a malformed cap
is the policy's fault, a malformed size the caller's. -/
def checkSize (exceeded : ErrCode) (size cap : String) : Except ErrCode Unit :=
  match cmpPositiveDecimals size cap with
  | some .gt => .error exceeded
  | some _ => .ok ()
  | none =>
    if (cmpPositiveDecimals cap cap).isNone then .error .internalError else .error .badRequest

def checkNotional (exceeded : ErrCode) (size price cap : String) : Except ErrCode Unit :=
  match notionalExceeds size price cap with
  | some true => .error exceeded
  | some false => .ok ()
  | none =>
    if (notionalExceeds "1" "1" cap).isNone then .error .internalError else .error .badRequest

/-- The size and notional checks of `enforce_order_cap`, against the entry of the symbol. -/
def checkOrderCap (entry : OrderAssetCap) (qty : String) (price : Option String) :
    Except ErrCode Unit :=
  match checkSize .sizeOverCap qty entry.maxQty with
  | .error code => .error code
  | .ok () =>
    match entry.maxNotional, price with
    | none, _ => .ok ()
    | some _, none => .error .notionalOverCap
    | some cap, some px => checkNotional .notionalOverCap qty px cap

def enforceOrderCap (policy : Option Policy) (symbol : String) (qty price : Option String) :
    Except ErrCode Unit :=
  match policy.bind Policy.orderCaps with
  | none => .ok ()
  | some caps =>
    match caps.find? fun c => c.symbol = symbol with
    | none => .error .policyDenied
    | some entry =>
      match qty with
      | none => .ok ()
      | some q => checkOrderCap entry q price

/-- Two decimals, compared by value. -/
structure DecimalLE (a b : String) : Prop where
  left : isDecimal a = true
  right : isDecimal b = true
  le : decimalValue a ≤ decimalValue b

theorem checkSize_ok {exceeded : ErrCode} {size cap : String}
    (h : checkSize exceeded size cap = .ok ()) : DecimalLE size cap := by
  unfold checkSize at h
  cases hcmp : cmpPositiveDecimals size cap with
  | none =>
    simp only [hcmp] at h
    split at h <;> cases h
  | some o =>
    obtain ⟨hsize, hcap, ho⟩ := cmpPositiveDecimals_eq hcmp
    refine ⟨hsize, hcap, ?_⟩
    cases o with
    | gt => simp [hcmp] at h
    | eq => exact (compare_eq_iff_eq.mp ho.symm).le
    | lt => exact (compare_lt_iff_lt.mp ho.symm).le

theorem checkNotional_ok {exceeded : ErrCode} {size price cap : String}
    (h : checkNotional exceeded size price cap = .ok ()) :
    isDecimal price = true ∧ isDecimal cap = true ∧
      decimalValue size * decimalValue price ≤ decimalValue cap := by
  unfold checkNotional at h
  cases hexceeds : notionalExceeds size price cap with
  | none =>
    simp only [hexceeds] at h
    split at h <;> cases h
  | some b =>
    obtain ⟨hprice, hcap, hb⟩ := notionalExceeds_eq hexceeds
    cases b with
    | true => simp [hexceeds] at h
    | false => exact ⟨hprice, hcap, not_lt.mp fun hlt => Bool.false_ne_true (hb.mpr hlt)⟩

/-- Size and notional within the entry. -/
structure WithinCap (entry : OrderAssetCap) (qty : String) (price : Option String) : Prop where
  size : DecimalLE qty entry.maxQty
  notional : ∀ cap, entry.maxNotional = some cap → ∃ px, price = some px ∧
    isDecimal px = true ∧ isDecimal cap = true ∧
    decimalValue qty * decimalValue px ≤ decimalValue cap

theorem checkOrderCap_ok {entry : OrderAssetCap} {qty : String} {price : Option String}
    (h : checkOrderCap entry qty price = .ok ()) : WithinCap entry qty price := by
  unfold checkOrderCap at h
  cases hsize : checkSize .sizeOverCap qty entry.maxQty with
  | error code => simp [hsize] at h
  | ok u =>
    refine ⟨checkSize_ok hsize, fun cap hcap => ?_⟩
    cases price with
    | none => simp [hsize, hcap] at h
    | some px => exact ⟨px, rfl, checkNotional_ok (by simpa [hsize, hcap] using h)⟩

theorem enforceOrderCap_ok {p : Policy} {caps : List OrderAssetCap} {symbol qty : String}
    {price : Option String} (hcaps : p.orderCaps = some caps)
    (h : enforceOrderCap (some p) symbol (some qty) price = .ok ()) :
    ∃ entry, caps.find? (fun c => c.symbol = symbol) = some entry ∧ WithinCap entry qty price := by
  simp only [enforceOrderCap, Option.bind_some, hcaps] at h
  cases hfind : caps.find? fun c => c.symbol = symbol with
  | none => simp [hfind] at h
  | some entry => exact ⟨entry, rfl, checkOrderCap_ok (by simpa [hfind] using h)⟩

/-! ### The generic routes under caps -/

/-- A value that is one token: not empty, letters, digits, `-` and `_`. -/
def isToken (v : String) : Bool :=
  v ≠ "" ∧ v.toList.all fun c => isAsciiAlphanumeric c ∨ c = '-' ∨ c = '_'

/-- The loop of `params_subset_of`: the names seen, unless a piece is refused. -/
def collectParams (allowed : List String) : List String → List String → Option (List String)
  | seen, [] => some seen
  | seen, pair :: rest =>
    match splitOnce '=' pair with
    | none => none
    | some (k, v) =>
      if k ∉ allowed ∨ k ∈ seen then none
      else if !isToken v then none
      else collectParams allowed (seen ++ [k]) rest

def paramsSubsetOf (q : String) (allowed required : List String) : Bool :=
  if q = "" then required.isEmpty
  else (collectParams allowed [] (pieces q)).any fun seen => required.all (· ∈ seen)

/-- The `single_filter` of `generic_capped_op_allowed`: exactly `key=<token>`. -/
def singleFilter (q key : String) : Bool :=
  ((stripPrefix key q).bind (stripPrefix "=")).any isToken

def binanceCappedOpAllowed (method path q : String) : Bool :=
  match method, path with
  | "GET", "/fapi/v2/account" => q = ""
  | "GET", "/fapi/v1/openOrders" => q = "" ∨ singleFilter q "symbol"
  | "GET", "/api/v3/account" => q = ""
  | "GET", "/api/v3/openOrders" => q = "" ∨ singleFilter q "symbol"
  | "GET", "/fapi/v1/userTrades" =>
    paramsSubsetOf q ["symbol", "orderId", "startTime", "endTime", "fromId", "limit"] ["symbol"]
  | "DELETE", "/fapi/v1/allOpenOrders" => singleFilter q "symbol"
  | _, _ => false

def okxCappedOpAllowed (method path q : String) : Bool :=
  match method, path with
  | "GET", "/api/v5/account/balance" => q = ""
  | "GET", "/api/v5/account/positions" => q = ""
  | "GET", "/api/v5/trade/orders-pending" => q = "" ∨ singleFilter q "instId"
  | "GET", "/api/v5/trade/fills-history" =>
    paramsSubsetOf q ["instType", "instId", "ordId", "after", "before", "begin", "end", "limit"]
      ["instType"]
  | _, _ => false

def splitQuery (path query : String) : String × String :=
  match splitOnce '?' path with
  | some (path, embedded) => (path, if embedded ≠ "" then embedded else query)
  | none => (path, query)

def genericCappedOpAllowed (venue method path query body : String) : Bool :=
  if body ≠ "" then false
  else if '?' ∈ path.toList ∧ query ≠ "" then false
  else
    match venue with
    | "binance" => binanceCappedOpAllowed method (splitQuery path query).1 (splitQuery path query).2
    | "okx" => okxCappedOpAllowed method (splitQuery path query).1 (splitQuery path query).2
    | _ => false

theorem noAmp_of_isToken {v : String} (h : isToken v = true) : NoAmp v := by
  simp only [isToken, decide_eq_true_eq, List.all_eq_true] at h
  intro hamp
  exact absurd (h.2 '&' hamp) (by decide)

theorem collectParams_eq {seen out ps : List String} (h : collectParams allowed seen ps = some out)
    (hseen : seen.Nodup) :
    ∃ pairs : List (String × String), ps = pairs.map formPiece ∧
      out = seen ++ pairs.map Prod.fst ∧ out.Nodup ∧
      ∀ pair ∈ pairs, pair.1 ∈ allowed ∧ '=' ∉ pair.1.toList ∧ isToken pair.2 = true := by
  induction ps generalizing seen with
  | nil =>
    obtain rfl : seen = out := by simpa [collectParams] using h
    exact ⟨[], rfl, by simp, hseen, by simp⟩
  | cons piece rest ih =>
    rw [collectParams] at h
    split at h
    · cases h
    rename_i k v hsplit
    split at h
    · cases h
    rename_i hk
    split at h
    · cases h
    rename_i hv
    obtain ⟨hlisted, hfresh⟩ := not_or.mp hk
    have hnodup : (seen ++ [k]).Nodup := List.nodup_append.mpr
      ⟨hseen, List.nodup_singleton k, by grind⟩
    obtain ⟨pairs, rfl, rfl, hout, hpairs⟩ := ih h hnodup
    obtain ⟨rfl, hname⟩ := formPiece_of_splitOnce hsplit
    refine ⟨(k, v) :: pairs, rfl, by simp, hout, ?_⟩
    exact List.forall_mem_cons.mpr
      ⟨⟨not_not.mp hlisted, hname, by simpa using hv⟩, hpairs⟩

theorem pieces_of_paramsSubsetOf (h : paramsSubsetOf q allowed required = true) :
    q = "" ∨ ∃ pairs : List (String × String), pieces q = pairs.map formPiece ∧
      (pairs.map Prod.fst).Nodup ∧
      ∀ pair ∈ pairs, pair.1 ∈ allowed ∧ '=' ∉ pair.1.toList ∧ isToken pair.2 = true := by
  unfold paramsSubsetOf at h
  split at h
  · exact .inl ‹_›
  · simp only [Option.any_eq_true] at h
    obtain ⟨seen, hseen, -⟩ := h
    obtain ⟨pairs, hpieces, rfl, hnodup, hpairs⟩ := collectParams_eq hseen List.nodup_nil
    exact .inr ⟨pairs, hpieces, by simpa using hnodup, hpairs⟩

theorem namesIn_of_paramsSubsetOf (h : paramsSubsetOf q allowed required = true) :
    NamesIn allowed q := by
  rcases pieces_of_paramsSubsetOf h with rfl | ⟨pairs, hpieces, -, hpairs⟩
  · exact namesIn_empty
  · intro piece hpiece
    rw [hpieces] at hpiece
    obtain ⟨pair, hpair, rfl⟩ := List.mem_map.mp hpiece
    obtain ⟨hlisted, hname, -⟩ := hpairs pair hpair
    rw [pieceName_formPiece hname]
    exact .inr hlisted

theorem singleFilter_eq (h : singleFilter q key = true) :
    ∃ v, isToken v = true ∧ q = formPiece (key, v) := by
  simp only [singleFilter, Option.any_eq_true, Option.bind_eq_some_iff,
    stripPrefix_eq_some_iff] at h
  obtain ⟨v, ⟨rest, rfl, rfl⟩, hv⟩ := h
  exact ⟨v, hv, (String.append_assoc ..).symm⟩

theorem namesIn_of_singleFilter (h : singleFilter q key = true) (heq : '=' ∉ key.toList)
    (hamp : NoAmp key) : NamesIn [key] q := by
  obtain ⟨v, hv, rfl⟩ := singleFilter_eq h
  rw [← formEncode_singleton]
  refine namesIn_formEncode (by simpa using heq) ?_
  simpa using And.intro hamp (noAmp_of_isToken hv)

def cappedBinanceNames : List String :=
  ["symbol", "orderId", "startTime", "endTime", "fromId", "limit"]

theorem namesIn_of_binanceCappedOpAllowed (h : binanceCappedOpAllowed method path q = true) :
    NamesIn cappedBinanceNames q := by
  have hfilter : singleFilter q "symbol" = true → NamesIn cappedBinanceNames q := fun hq =>
    (namesIn_of_singleFilter hq (by decide) (by simp [NoAmp])).mono
      (by simp [cappedBinanceNames])
  have hempty : q = "" → NamesIn cappedBinanceNames q := by
    rintro rfl
    exact namesIn_empty
  unfold binanceCappedOpAllowed at h
  split at h
  · exact hempty (by simpa using h)
  · exact (by simpa using h : q = "" ∨ _).elim hempty hfilter
  · exact hempty (by simpa using h)
  · exact (by simpa using h : q = "" ∨ _).elim hempty hfilter
  · exact namesIn_of_paramsSubsetOf h
  · exact hfilter h
  · exact absurd h Bool.false_ne_true

theorem genericCappedOpAllowed_binance {query body : String}
    (h : genericCappedOpAllowed "binance" method path query body = true) :
    body = "" ∧ NamesIn cappedBinanceNames query := by
  unfold genericCappedOpAllowed at h
  split at h
  · cases h
  rename_i hbody
  refine ⟨not_not.mp hbody, ?_⟩
  split at h
  · cases h
  rename_i hquery
  have hnames := namesIn_of_binanceCappedOpAllowed h
  by_cases hmark : '?' ∈ path.toList
  · rw [not_not.mp fun hne => hquery ⟨hmark, hne⟩]
    exact namesIn_empty
  · simpa [splitQuery, splitOnce, hmark] using hnames

def okxReads : List (String × List String) :=
  [("/api/v5/account/balance", []), ("/api/v5/account/positions", []),
    ("/api/v5/trade/orders-pending", ["instId"]), ("/api/v5/trade/fills-history",
      ["instType", "instId", "ordId", "after", "before", "begin", "end", "limit"])]

def TokenParams (allowed : List String) (pairs : List (String × String)) : Prop :=
  (pairs.map Prod.fst).Nodup ∧ ∀ pair ∈ pairs, pair.1 ∈ allowed ∧ isToken pair.2 = true

theorem exists_tokenParams_of_singleFilter (h : singleFilter q key = true) (hkey : key ∈ allowed) :
    ∃ pairs, q = formEncode pairs ∧ TokenParams allowed pairs := by
  obtain ⟨v, hv, rfl⟩ := singleFilter_eq h
  refine ⟨[(key, v)], (formEncode_singleton _).symm, by simp, ?_⟩
  simpa using ⟨hkey, hv⟩

theorem exists_tokenParams_of_paramsSubsetOf (h : paramsSubsetOf q allowed required = true) :
    ∃ pairs, q = formEncode pairs ∧ TokenParams allowed pairs := by
  rcases pieces_of_paramsSubsetOf h with rfl | ⟨pairs, hpieces, hnodup, hpairs⟩
  · exact ⟨[], rfl, List.nodup_nil, by simp⟩
  · exact ⟨pairs, eq_formEncode_of_pieces hpieces, hnodup,
      fun pair hpair => ⟨(hpairs pair hpair).1, (hpairs pair hpair).2.2⟩⟩

theorem okxReads_of_okxCappedOpAllowed (h : okxCappedOpAllowed method path q = true) :
    method = "GET" ∧ ∃ allowed, (path, allowed) ∈ okxReads ∧
      ∃ pairs, q = formEncode pairs ∧ TokenParams allowed pairs := by
  have hempty : ∀ allowed, q = "" →
      ∃ pairs, q = formEncode pairs ∧ TokenParams allowed pairs :=
    fun _ hq => ⟨[], hq, List.nodup_nil, by simp⟩
  unfold okxCappedOpAllowed at h
  split at h
  · exact ⟨rfl, [], by simp [okxReads], hempty [] (by simpa using h)⟩
  · exact ⟨rfl, [], by simp [okxReads], hempty [] (by simpa using h)⟩
  · refine ⟨rfl, ["instId"], by simp [okxReads], ?_⟩
    rcases (by simpa using h : q = "" ∨ singleFilter q "instId" = true) with hq | hq
    · exact hempty _ hq
    · exact exists_tokenParams_of_singleFilter hq (List.mem_singleton.mpr rfl)
  · exact ⟨rfl, _, by simp [okxReads], exists_tokenParams_of_paramsSubsetOf h⟩
  · exact absurd h Bool.false_ne_true

theorem genericCappedOpAllowed_okx {body : String}
    (h : genericCappedOpAllowed "okx" method path "" body = true) :
    method = "GET" ∧ body = "" ∧ ∃ read ∈ okxReads, ∃ query, path = read.1 ++ query ∧
      (query = "" ∨ ∃ pairs, query = "?" ++ formEncode pairs ∧ TokenParams read.2 pairs) := by
  unfold genericCappedOpAllowed at h
  split at h
  · cases h
  rename_i hbody
  simp only [ne_eq, not_true_eq_false, and_false, if_false] at h
  obtain ⟨hmethod, allowed, hread, pairs, hquery, hpairs⟩ := okxReads_of_okxCappedOpAllowed h
  refine ⟨hmethod, not_not.mp hbody, ?_⟩
  unfold splitQuery at hread hquery
  cases hsplit : splitOnce '?' path with
  | none =>
    exact ⟨(path, allowed), by simpa [hsplit] using hread, "", String.append_empty.symm, .inl rfl⟩
  | some parts =>
    obtain ⟨before, after⟩ := parts
    obtain ⟨hparts, -⟩ := splitOnce_eq_some hsplit
    have hafter : after = formEncode pairs := by
      -- behind a bare question mark the gate falls back to the separate query, which is empty
      by_cases hne : after = "" <;> simpa [hsplit, hne] using hquery
    refine ⟨(before, allowed), by simpa [hsplit] using hread, "?" ++ after, ?_,
      .inr ⟨pairs, by rw [hafter], hpairs⟩⟩
    exact String.toList_inj.mp (by simp [hparts])

/-! ### The operations of `sign_binance_request` -/

def binanceRequestAllowedParams : String → Option (List String)
  | "account" => some ["recvWindow", "timestamp"]
  | "positionRisk" => some ["symbol", "recvWindow", "timestamp"]
  | "openOrders" => some ["symbol", "recvWindow", "timestamp"]
  | "orderStatus" => some ["symbol", "orderId", "origClientOrderId", "recvWindow", "timestamp"]
  | "userTrades" =>
    some ["symbol", "startTime", "endTime", "fromId", "limit", "recvWindow", "timestamp"]
  | "income" =>
    some ["symbol", "incomeType", "startTime", "endTime", "limit", "recvWindow", "timestamp"]
  | "listenKey" => some ["recvWindow", "timestamp"]
  | "order" =>
    some ["symbol", "side", "positionSide", "type", "timeInForce", "quantity", "reduceOnly",
    "price", "newClientOrderId", "stopPrice", "closePosition", "activationPrice", "callbackRate",
      "workingType", "priceProtect", "newOrderRespType", "recvWindow", "timestamp"]
  | "cancel" => some ["symbol", "orderId", "origClientOrderId", "recvWindow", "timestamp"]
  | "allOpenOrders" => some ["symbol", "recvWindow", "timestamp"]
  | "leverage" => some ["symbol", "leverage", "recvWindow", "timestamp"]
  | "positionMode" => some ["dualSidePosition", "recvWindow", "timestamp"]
  | _ => none

/-- `binance_request_method_path`: the route of an operation. -/
def binanceRequestMethodPath : String → Option (String × String)
  | "account" => some ("GET", "/fapi/v2/account")
  | "positionRisk" => some ("GET", "/fapi/v2/positionRisk")
  | "openOrders" => some ("GET", "/fapi/v1/openOrders")
  | "orderStatus" => some ("GET", "/fapi/v1/order")
  | "userTrades" => some ("GET", "/fapi/v1/userTrades")
  | "income" => some ("GET", "/fapi/v1/income")
  | "positionMode" => some ("POST", "/fapi/v1/positionSide/dual")
  | "listenKey" => some ("POST", "/fapi/v1/listenKey")
  | "leverage" => some ("POST", "/fapi/v1/leverage")
  | "order" => some ("POST", "/fapi/v1/order")
  | "cancel" => some ("DELETE", "/fapi/v1/order")
  | "allOpenOrders" => some ("DELETE", "/fapi/v1/allOpenOrders")
  | _ => none

/-- The loop of `check_binance_request_allow`. -/
def checkRequestParams (op : String) (allowed : List String) : List String → Except String Unit
  | [] => .ok ()
  | pair :: rest =>
    if pair = "" then checkRequestParams op allowed rest
    else if pieceName pair ∉ allowed then
      .error ("param_not_allowed:" ++ op ++ ":" ++ pieceName pair)
    else checkRequestParams op allowed rest

def checkBinanceRequestAllow (op payload : String) : Except String Unit :=
  match binanceRequestAllowedParams op with
  | none => .error ("op_not_allowed:" ++ op)
  | some allowed => checkRequestParams op allowed (pieces payload)

theorem namesIn_of_checkRequestParams {op : String} {ps : List String}
    (h : checkRequestParams op allowed ps = .ok ()) :
    ∀ piece ∈ ps, piece = "" ∨ pieceName piece ∈ allowed := by
  induction ps with
  | nil => simp
  | cons pair rest ih =>
    simp only [checkRequestParams] at h
    intro piece hpiece
    split at h
    · rename_i hempty
      rcases List.mem_cons.mp hpiece with rfl | hrest
      · exact .inl hempty
      · exact ih h piece hrest
    · split at h
      · cases h
      · rename_i hname
        rcases List.mem_cons.mp hpiece with rfl | hrest
        · exact .inr (not_not.mp hname)
        · exact ih h piece hrest

theorem checkBinanceRequestAllow_ok {op payload : String}
    (h : checkBinanceRequestAllow op payload = .ok ()) :
    ∃ allowed, binanceRequestAllowedParams op = some allowed ∧ NamesIn allowed payload := by
  unfold checkBinanceRequestAllow at h
  split at h
  · cases h
  rename_i allowed hallowed
  exact ⟨allowed, hallowed, namesIn_of_checkRequestParams h⟩

def binanceRequestOrderDeniedForCapped (op : String) (policy : Option Policy) : Bool :=
  op = "order" ∧ policy.any fun p => p.orderCaps.isSome ∨ p.intentPubkey.isSome

end Signer
