import Signer.CancelCaps
import Signer.JsonText

/-!
# What a capped OKX key signs

Under a policy with order caps the three OKX routes sign three kinds of text: a read of one of four
endpoints, an order within the entry of its instrument, and a cancel for a listed instrument. The
generic route merges the query into the path before the gate looks at it. The structured routes
write JSON by hand, the compact text of an object whose member names differ.
-/

namespace Signer

open Text

/-! ### Reads -/

def OkxRead (ts : UInt64) (text : String) : Prop :=
  ∃ read ∈ okxReads, ∃ query, text = okxIso8601FromMs ts ++ "GET" ++ read.1 ++ query ∧
    (query = "" ∨ ∃ pairs, query = "?" ++ formEncode pairs ∧ TokenParams read.2 pairs)

theorem okxRead_of_capped {method path body : String} (ts : UInt64)
    (h : genericCappedOpAllowed "okx" method path "" body = true) :
    OkxRead ts (okxCanonical (okxIso8601FromMs ts) method path body) := by
  obtain ⟨rfl, rfl, read, hread, query, rfl, hquery⟩ := genericCappedOpAllowed_okx h
  have hverb : toAsciiUppercase "GET" = "GET" := toAsciiUppercase_of_mem (by decide)
  refine ⟨read, hread, query, ?_, hquery⟩
  simp only [okxCanonical, hverb, String.append_empty, String.append_assoc]

/-! ### Orders and cancels -/

def memberValues (name : String) (members : List (String × Json)) : List Json :=
  (members.filter fun member => member.1 = name).map Prod.snd

def okxOrderMembers (o : OrderRequest) (side ordType : String) (price coid : Option String) :
    List (String × Json) :=
  [("instId", .string o.symbol), ("tdMode", .string "cross"), ("side", .string side),
      ("ordType", .string ordType), ("sz", .string o.qty)] ++
    price.elim [] (fun px => [("px", .string px)]) ++
    (if o.reduceOnly then [("reduceOnly", .bool true)] else []) ++
    coid.elim [] (fun id => [("clOrdId", .string id)])

def OkxOrderWithin (caps : List OrderAssetCap) (ts : UInt64) (text : String) : Prop :=
  ∃ body members symbol qty entry,
    text = okxIso8601FromMs ts ++ "POST" ++ "/api/v5/trade/order" ++ body ∧
    compactText (.object members) = some body.toList ∧
    memberValues "instId" members = [.string symbol] ∧ memberValues "sz" members = [.string qty] ∧
    caps.find? (fun c => c.symbol = symbol) = some entry ∧ DecimalLE qty entry.maxQty ∧
    ∀ cap, entry.maxNotional = some cap →
      memberValues "ordType" members = [.string "limit"] ∧ ∃ px,
        memberValues "px" members = [.string px] ∧ isDecimal px = true ∧ isDecimal cap = true ∧
        decimalValue qty * decimalValue px ≤ decimalValue cap

def OkxCancelListed (caps : List OrderAssetCap) (ts : UInt64) (text : String) : Prop :=
  ∃ body symbol orderId,
    text = okxIso8601FromMs ts ++ "POST" ++ "/api/v5/trade/cancel-order" ++ body ∧
    compactText (.object [("instId", .string symbol), ("ordId", .string orderId)]) =
      some body.toList ∧ Listed caps symbol

theorem jcsString_of_isSafeParamValue {v : String} (h : isSafeParamValue v = true) :
    jcsString v = '"' :: v.toList ++ ['"'] := by
  refine jcsString_of_jsonPlain fun c hc => ?_
  simp only [isSafeParamValue, decide_eq_true_eq, List.all_eq_true] at h
  have hcode : 45 ≤ c.toNat ∧ c.toNat ≠ 92 := by
    have hsafe := h.2 c hc
    simp only [isAsciiAlphanumeric, isAsciiDigit, Char.le_def, UInt32.le_iff_toNat_le,
      Bool.decide_or, Bool.decide_and, Bool.or_eq_true, Bool.and_eq_true,
      decide_eq_true_eq, Char.reduceVal, UInt32.reduceToNat] at hsafe
    rcases hsafe with (hdigit | hlower | hupper) | rfl | rfl | rfl
    all_goals first | decide | (simp only [Char.toNat]; omega)
  have hne : ∀ d : Char, d.toNat < 45 ∨ d.toNat = 92 → c ≠ d := by
    rintro d hd rfl
    omega
  have hquote : c ≠ '"' := hne _ (by decide)
  have hslash : c ≠ '\\' := hne _ (by decide)
  simp only [jcsChar, if_neg hquote, if_neg hslash]
  repeat rw [if_neg (by omega)]

theorem okxSide_eq {side out : String} (h : okxSide side = some out) :
    out = side ∧ isSafeParamValue side = true := by
  unfold okxSide at h
  split at h <;> cases h <;> exact ⟨rfl, by decide⟩

theorem okxOrderType_eq {ordType out : String} {needsPrice : Bool}
    (h : okxOrderType ordType = some (out, needsPrice)) :
    out = ordType ∧ ordType = if needsPrice then "limit" else "market" := by
  unfold okxOrderType at h
  split at h <;> cases h <;> exact ⟨rfl, rfl⟩

theorem compactMembers_optional {name : String} {value : Option String}
    {members : List (String × Json)} {text : List Char} (hname : isSafeParamValue name = true)
    (hvalue : ∀ v, value = some v → isSafeParamValue v = true)
    (hmembers : compactMembers members = some text) :
    compactMembers (value.elim [] (fun v => [(name, .string v)]) ++ members) =
      some ((value.elim "" fun v => ",\"" ++ name ++ "\":\"" ++ v ++ "\"").toList ++ text) := by
  cases value with
  | none => simpa using hmembers
  | some v =>
    simp [compactMembers, compactText, hmembers, jcsString_of_isSafeParamValue hname,
      jcsString_of_isSafeParamValue (hvalue v rfl)]

theorem buildOkxOrderBody_eq {o : OrderRequest} {body : String}
    (h : buildOkxOrderBody o = some body) :
    o.ordType = (if o.price.isSome then "limit" else "market") ∧
      compactText (.object (okxOrderMembers o o.side o.ordType o.price o.clientOrderId)) =
        some body.toList := by
  simp only [buildOkxOrderBody, do_eq_some, pure_eq_some, Option.guard_eq_some',
    exists_and_left, exists_const] at h
  obtain ⟨hsymbol, hqty, side, hside, ⟨ordType, needsPrice⟩, htype, price, hprice,
    coid, hcoid, rfl⟩ := h
  obtain ⟨rfl, rfl, hpx⟩ := orderPrice_eq hprice
  obtain ⟨rfl, hid⟩ := orderClientId_eq hcoid
  obtain ⟨rfl, hsideSafe⟩ := okxSide_eq hside
  obtain ⟨rfl, htypeEq⟩ := okxOrderType_eq htype
  refine ⟨htypeEq, ?_⟩
  have hordType : isSafeParamValue o.ordType = true := by
    rw [htypeEq]
    split <;> decide
  -- the optional members, from the last one backwards
  have hclOrdId := compactMembers_optional (by decide : isSafeParamValue "clOrdId" = true) hid
    (rfl : compactMembers [] = some ['\x7d'])
  have hreduceOnly : ∀ members text, compactMembers members = some text →
      compactMembers ((if o.reduceOnly then [("reduceOnly", .bool true)] else []) ++ members) =
        some ((if o.reduceOnly then ",\"reduceOnly\":true" else "").toList ++ text) := by
    intro members text hmembers
    split
    · simp [compactMembers, compactText, hmembers,
        jcsString_of_isSafeParamValue (by decide : isSafeParamValue "reduceOnly" = true)]
    · simpa using hmembers
  have hoptional := compactMembers_optional (by decide : isSafeParamValue "px" = true) hpx
    (hreduceOnly _ _ hclOrdId)
  have hplain : ∀ v, isSafeParamValue v = true → jcsString v = '"' :: v.toList ++ ['"'] :=
    fun _ => jcsString_of_isSafeParamValue
  have hnames : ∀ name ∈ ["instId", "tdMode", "side", "ordType", "sz", "cross"],
      isSafeParamValue name = true := by decide
  simp only [List.forall_mem_cons] at hnames
  rw [List.append_nil] at hoptional
  simp [okxOrderMembers, compactText, compactMembers, hplain, hsymbol, hqty, hsideSafe,
      hordType, hnames, hoptional]

theorem buildOkxCancelBody_eq {c : CancelRequest} {body : String}
    (h : buildOkxCancelBody c = some body) :
    compactText (.object [("instId", .string c.symbol), ("ordId", .string c.orderId)]) =
      some body.toList := by
  simp only [buildOkxCancelBody, do_eq_some, pure_eq_some, Option.guard_eq_some',
    exists_and_left, exists_const] at h
  obtain ⟨hsymbol, horderId, rfl⟩ := h
  simp [compactText, compactMembers, jcsString_of_isSafeParamValue hsymbol,
    jcsString_of_isSafeParamValue horderId,
    jcsString_of_isSafeParamValue (by decide : isSafeParamValue "instId" = true),
    jcsString_of_isSafeParamValue (by decide : isSafeParamValue "ordId" = true)]

theorem memberValues_okxOrderMembers (o : OrderRequest) (side ordType : String)
    (price coid : Option String) :
    memberValues "instId" (okxOrderMembers o side ordType price coid) = [.string o.symbol] ∧
      memberValues "sz" (okxOrderMembers o side ordType price coid) = [.string o.qty] ∧
      memberValues "ordType" (okxOrderMembers o side ordType price coid) = [.string ordType] ∧
      ∀ px, price = some px →
        memberValues "px" (okxOrderMembers o side ordType price coid) = [.string px] := by
  -- none of the optional members but the price has one of these names
  have hoptional : ∀ name ∈ ["instId", "sz", "ordType", "px"],
      memberValues name (if o.reduceOnly then [("reduceOnly", .bool true)] else []) = [] ∧
        memberValues name (coid.elim [] fun id => [("clOrdId", .string id)]) = [] := by
    cases coid <;> cases o.reduceOnly <;> simp [memberValues]
  simp only [List.forall_mem_cons] at hoptional
  simp only [memberValues] at hoptional ⊢
  cases price <;> simp [okxOrderMembers, hoptional]

theorem okxOrderWithin_of_enforceOrderCap {p : Policy} {caps : List OrderAssetCap}
    {o : OrderRequest} {body : String} (ts : UInt64) (hcaps : p.orderCaps = some caps)
    (hcap : enforceOrderCap (some p) o.symbol (some o.qty) o.price = .ok ())
    (hbody : buildOkxOrderBody o = some body) :
    OkxOrderWithin caps ts
      (okxCanonical (okxIso8601FromMs ts) "POST" "/api/v5/trade/order" body) := by
  obtain ⟨entry, hentry, hwithin⟩ := enforceOrderCap_ok hcaps hcap
  obtain ⟨htype, htext⟩ := buildOkxOrderBody_eq hbody
  obtain ⟨hinstId, hsz, hordType, hpx⟩ :=
    memberValues_okxOrderMembers o o.side o.ordType o.price o.clientOrderId
  have hverb : toAsciiUppercase "POST" = "POST" := toAsciiUppercase_of_mem (by decide)
  refine ⟨body, _, o.symbol, o.qty, entry, by rw [okxCanonical, hverb], htext, hinstId, hsz, hentry,
    hwithin.size, fun cap hnotional => ?_⟩
  obtain ⟨px, hprice, hdecimal⟩ := hwithin.notional cap hnotional
  refine ⟨?_, px, hpx px hprice, hdecimal⟩
  rw [hordType, htype, hprice]
  rfl

/-! ### The three routes -/

def OkxSigned (caps : List OrderAssetCap) (ts : UInt64) (text : String) : Action → Prop
  | .signOkx => OkxRead ts text
  | .signOkxOrder => OkxOrderWithin caps ts text
  | .signOkxCancel => OkxCancelListed caps ts text
  | _ => False

/-- Whatever an OKX route signs under a policy with order caps is a read of a listed endpoint
with listed parameters, an order within the caps or a cancel for a listed instrument, at the
time of the request. -/
theorem okx_signature_within_caps {env : Env} {amb : Ambient} {req : SignRequest}
    {identity : ResolvedIdentity} {s s' : Enclave} {resp : SignResponse} {t : List Event}
    {p : Policy} {caps : List OrderAssetCap} {text : String}
    (hvenue : venueForAction req.action = some "okx")
    (hrun : (dispatch env amb req identity).Returns s resp s' t)
    (hpolicy : some p ∈ acceptedPolicies t) (hcaps : p.orderCaps = some caps)
    (hsigned : text ∈ hmacTexts t) :
    ∃ ts, req.timestampMs = some ts ∧ OkxSigned caps ts text req.action := by
  cases haction : req.action <;> simp only [haction, venueForAction, reduceCtorEq,
    Option.some.injEq, String.reduceEq] at hvenue <;> simp only [dispatch, haction] at hrun
  case signOkx =>
    obtain ⟨method, path, body, ts, blob, _, triple, -, -, -, hts, -, -, hgate, -, rfl⟩ :=
      handleSignOkx_signs hrun
    have hp : some p = blob.policy := by simpa using hpolicy
    obtain ⟨_, ⟨⟩⟩ := mem_hmacTexts_signTrace.mp hsigned
    exact ⟨ts, hts, okxRead_of_capped ts (hgate (by simp [← hp, hcaps]))⟩
  case signOkxOrder =>
    obtain ⟨order, ts, blob, _, body, triple, _, intent, -, hts, -, hcap, -, hbody, -, rfl⟩ :=
      handleSignOkxOrder_signs hrun
    have hp : some p = blob.policy := by simpa using hpolicy
    obtain ⟨_, ⟨⟩⟩ := mem_hmacTexts_signTrace.mp hsigned
    rw [← hp] at hcap
    exact ⟨ts, hts, okxOrderWithin_of_enforceOrderCap ts hcaps hcap hbody⟩
  case signOkxCancel =>
    obtain ⟨cancel, ts, blob, _, body, triple, _, intent, -, hts, -, hcap, -, hbody, -, rfl⟩ :=
      handleSignOkxCancel_signs hrun
    have hp : some p = blob.policy := by simpa using hpolicy
    obtain ⟨_, ⟨⟩⟩ := mem_hmacTexts_signTrace.mp hsigned
    rw [← hp] at hcap
    have hverb : toAsciiUppercase "POST" = "POST" := toAsciiUppercase_of_mem (by decide)
    exact ⟨ts, hts, body, cancel.symbol, cancel.orderId, by rw [okxCanonical, hverb],
      buildOkxCancelBody_eq hbody, listed_of_enforceOrderCap hcaps hcap⟩

namespace Sample

def okxSecret : Json :=
  .object [("key", .string "sample-key"), ("secret", .string "sample-secret"),
    ("passphrase", .string "sample-pass")]

def okxPolicy : Policy where
  orderCaps := some [{ symbol := "BTC-USDT", maxQty := "0.5", maxNotional := some "40000" }]

def okxPolicyText : String :=
  "\x7b\"order_caps\":[\x7b\"symbol\":\"BTC-USDT\",\"max_qty\":\"0.5\"," ++
    "\"max_notional\":\"40000\"\x7d]\x7d"

def okxBlob : Answers where
  plaintext := "\x7b\"policy\":" ++ okxPolicyText ++ ",\"secret\":\x7b\"key\":\"sample-key\"," ++
    "\"secret\":\"sample-secret\",\"passphrase\":\"sample-pass\"\x7d\x7d"
  parsed := .withPolicy okxPolicy okxSecret
  policyText := okxPolicyText

def okxFills : SignRequest :=
  { request .signOkx with
    method := some "GET", path := some "/api/v5/trade/fills-history",
    query := some "instType=SPOT&limit=10", body := some "" }

def okxFillsText : String :=
  "2023-11-14T22:13:20.000ZGET/api/v5/trade/fills-history?instType=SPOT&limit=10"

def okxLimitOrder : SignRequest :=
  { request .signOkxOrder with
    order := some { symbol := "BTC-USDT", side := "buy", qty := "0.25", ordType := "limit",
                    price := some "64000.5" } }

def okxLimitOrderText : String :=
  "2023-11-14T22:13:20.000ZPOST/api/v5/trade/order\x7b\"instId\":\"BTC-USDT\"," ++
    "\"tdMode\":\"cross\",\"side\":\"buy\",\"ordType\":\"limit\",\"sz\":\"0.25\"," ++
    "\"px\":\"64000.5\"\x7d"

end Sample

open Sample in
/-- The sample read and the sample order are signed, and their texts are what a capped key may
sign. -/
theorem okx_signature_within_caps_sample :
    OkxRead 1700000000000 okxFillsText ∧
      OkxOrderWithin [OrderAssetCap.mk "BTC-USDT" "0.5" (some "40000")] 1700000000000
        okxLimitOrderText := by
  obtain ⟨_, _, _, hread, hreadPolicy, hreadText⟩ : ∃ resp s' t,
      (dispatch (env okxBlob) {} okxFills (identity ["okx"] .active)).Returns {} resp s' t ∧
      some okxPolicy ∈ acceptedPolicies t ∧ okxFillsText ∈ hmacTexts t :=
    Proc.exists_returns_of_run (by decide +kernel)
  obtain ⟨_, _, _, horder, horderPolicy, horderText⟩ : ∃ resp s' t,
      (dispatch (env okxBlob) {} okxLimitOrder
        (identity ["okx"] .active)).Returns {} resp s' t ∧
      some okxPolicy ∈ acceptedPolicies t ∧ okxLimitOrderText ∈ hmacTexts t :=
    Proc.exists_returns_of_run (by decide +kernel)
  obtain ⟨_, ⟨⟩, hfills⟩ := okx_signature_within_caps rfl hread hreadPolicy rfl hreadText
  obtain ⟨_, ⟨⟩, hlimit⟩ := okx_signature_within_caps rfl horder horderPolicy rfl horderText
  exact ⟨hfills, hlimit⟩

end Signer
