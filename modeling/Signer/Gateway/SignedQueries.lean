import Signer.CanonicalText
import Signer.Gateway.Reconcile
import Signer.Sample
import Signer.Text.Hex

/-!
# Signed queries

Binance takes a signature as the last parameter of a query. The enclave returns it with the time and
the window among the headers, and the gateway puts the query together again: for an order or a
cancel in the body, for a read in the address. The two constructions must agree to the byte, and
neither check of the gateway may stop what the enclave returns.
-/

namespace Signer.Gateway

open Text

/-! ### The venues -/

def isLive (setting : Option String) : Bool :=
  match (setting.map trim).map toAsciiLowercase with
  | some "mainnet" | some "live" | some "prod" => true
  | _ => false

/-- `binance_base_url`, for a value of `SIGNER_BINANCE_ENV`. -/
def binanceBaseUrl (setting : Option String) : String :=
  if isLive setting then "https://fapi.binance.com" else "https://testnet.binancefuture.com"

def okxBaseUrl : String := "https://www.okx.com"

/-- `okx_is_demo`, for a value of `SIGNER_OKX_ENV`. -/
def okxIsDemo (setting : Option String) : Bool := !isLive setting

/-! ### The two constructions -/

def isSafeQueryValue (v : String) : Bool :=
  v ≠ "" ∧ v.toList.all fun c => isAsciiAlphanumeric c ∨ c = '_' ∨ c = '-'

def queryHeaders : List String := ["signature", "timestamp", "recvWindow"]

def withoutQueryHeaders (headers : HttpHeaders) : HttpHeaders :=
  headers.filter fun h => h.1 ∉ queryHeaders

def blanks : List Char := [' ', '\n', '\r', '\x00']

/-- `build_binance_signed_qs`: the query, and the headers that remain. -/
def buildBinanceSignedQs (canonical : String) (headers : HttpHeaders) :
    Except String (String × HttpHeaders) :=
  match headers.lookup "signature", headers.lookup "timestamp" with
  | none, _ => .error "missing signature"
  | some _, none => .error "missing timestamp"
  | some signature, some timestamp =>
    let recvWindow := (headers.lookup "recvWindow").getD "5000"
    if ¬ [signature, timestamp, recvWindow].all isSafeQueryValue then
      .error "unsafe character in signed querystring component"
    else if canonical = "" ∨ canonical.toList.any (· ∈ blanks) = true then
      .error "unsafe character in canonical querystring"
    else
      .ok (canonical ++ "&timestamp=" ++ timestamp ++ "&recvWindow=" ++ recvWindow ++
        "&signature=" ++ signature, withoutQueryHeaders headers)

/-- `binance_signed_url`, for a value of `SIGNER_BINANCE_ENV`. -/
def binanceSignedUrl (setting : Option String) (path userQuery : String) (headers : HttpHeaders) :
    Except String (String × HttpHeaders) :=
  match headers.lookup "signature", headers.lookup "timestamp" with
  | some signature, some timestamp =>
    let recvWindow := (headers.lookup "recvWindow").getD "5000"
    if ¬ [signature, timestamp, recvWindow].all isSafeQueryValue then .error "internal_error"
    else
      .ok (binanceBaseUrl setting ++ path ++ "?" ++
        (if userQuery = "" then "" else userQuery ++ "&") ++ "timestamp=" ++ timestamp ++
        "&recvWindow=" ++ recvWindow ++ "&signature=" ++ signature, withoutQueryHeaders headers)
  | _, _ => .error "internal_error"

/-! ### What the enclave returns is safe -/

theorem isSafeQueryValue_of_forall {v : String} (hne : v ≠ "")
    (h : ∀ c ∈ v.toList, isAsciiAlphanumeric c = true) : isSafeQueryValue v = true := by
  simp only [isSafeQueryValue, decide_eq_true_eq, List.all_eq_true]
  exact ⟨hne, fun c hc => .inl (h c hc)⟩

theorem isSafeQueryValue_decimalText (n : UInt64) : isSafeQueryValue (decimalText n) = true := by
  refine isSafeQueryValue_of_forall ?_ fun c hc => ?_
  · intro h
    have hlength := congrArg (fun s : String => s.toList.length) h
    rw [decimalText, Nat.toList_repr] at hlength
    exact absurd (List.eq_nil_of_length_eq_zero hlength) (Nat.toDigits_ne_nil)
  · have hdigit : isAsciiDigit c = true := by
      simpa [isAsciiDigit, Char.isDigit, Char.le_def] using isDigit_of_mem_decimalText hc
    simp [isAsciiAlphanumeric, hdigit]

theorem isSafeQueryValue_hexEncode {tag : Bytes} (h : tag ≠ []) :
    isSafeQueryValue (hexEncode tag) = true := by
  refine isSafeQueryValue_of_forall ?_ (forall_mem_hexEncode (by decide) tag)
  intro hempty
  have hsize := utf8ByteSize_hexEncode tag
  rw [hempty] at hsize
  rw [String.utf8ByteSize_empty] at hsize
  exact h (List.eq_nil_of_length_eq_zero (by omega))

theorem notMem_blanks_of_isSafeParamValue {v : String} (h : isSafeParamValue v = true) :
    ∀ c ∈ v.toList, c ∉ blanks := by
  simp only [isSafeParamValue, decide_eq_true_eq, List.all_eq_true] at h
  have hunsafe : (blanks.all fun c =>
      ¬ (isAsciiAlphanumeric c = true ∨ c = '-' ∨ c = '_' ∨ c = '.')) = true := by decide
  exact fun c hc hblank => of_decide_eq_true (List.all_eq_true.mp hunsafe c hblank) (h.2 c hc)

theorem notMem_blanks_formEncode {pairs : List (String × String)}
    (h : ∀ pair ∈ pairs, isSafeParamValue pair.1 = true ∧ isSafeParamValue pair.2 = true) :
    ∀ c ∈ (formEncode pairs).toList, c ∉ blanks := by
  intro c hc
  rcases mem_formEncode hc with rfl | rfl | ⟨pair, hpair, hname | hvalue⟩
  · decide
  · decide
  · exact notMem_blanks_of_isSafeParamValue (h pair hpair).1 c hname
  · exact notMem_blanks_of_isSafeParamValue (h pair hpair).2 c hvalue

/-- The enclave wrote this text for an order or a cancel. -/
def IsCanonical (canonical : String) : Prop :=
  (∃ o, buildBinanceOrderQuery o = some canonical) ∨
    ∃ c, buildBinanceCancelQuery c = some canonical

theorem IsCanonical.eq_formEncode {canonical : String} (h : IsCanonical canonical) :
    ∃ pairs, pairs ≠ [] ∧ canonical = formEncode pairs ∧
      ∀ pair ∈ pairs, isSafeParamValue pair.1 = true ∧ isSafeParamValue pair.2 = true := by
  rcases h with ⟨o, ho⟩ | ⟨c, hc⟩
  · obtain ⟨side, ordType, needsPrice, price, coid, hsymbol, hqty, hside, htype, hprice, hcoid,
      rfl⟩ := buildBinanceOrderQuery_eq ho
    obtain ⟨rfl, -, hprice⟩ := orderPrice_eq hprice
    obtain ⟨rfl, hid⟩ := orderClientId_eq hcoid
    refine ⟨_, ?_, rfl, isSafe_binanceOrderPairs hsymbol hqty hside htype hprice hid⟩
    simp [binanceOrderPairs]
  · obtain ⟨hsymbol, horderId, rfl⟩ := buildBinanceCancelQuery_eq hc
    have hnames : isSafeParamValue "symbol" = true ∧ isSafeParamValue "orderId" = true := by decide
    refine ⟨_, by simp, rfl, ?_⟩
    simp [hsymbol, horderId, hnames]

/-! ### What is sent is what was signed -/

def signedText (env : Env) (signed : HmacHeaders) : String :=
  signed.message ++ "&signature=" ++ hexEncode (hmacText env signed.secret signed.message)

section

variable {env : Env} {secret key : String} {ts : UInt64}

theorem all_isSafeQueryValue (hmac : ∀ key text, (env.hmacSha256 key text).length = 32)
    (message : String) :
    [hexEncode (hmacText env secret message), decimalText ts, "5000"].all
      isSafeQueryValue = true := by
  have htag : hmacText env secret message ≠ [] := by
    intro hempty
    have hlength := hmac (bytes secret) (bytes message)
    rw [hmacText] at hempty
    rw [hempty] at hlength
    cases hlength
  have hwindow : isSafeQueryValue "5000" = true := by decide
  simp [isSafeQueryValue_hexEncode htag, isSafeQueryValue_decimalText, hwindow]

theorem lookup_computeBinanceHeaders (query : String) :
    let headers := (computeBinanceHeaders env secret key ts query "").headers
    headers.lookup "signature" = some (hexEncode
        (hmacText env secret (binanceCanonical (binanceFullQuery ts query) ""))) ∧
      headers.lookup "timestamp" = some (decimalText ts) ∧
      headers.lookup "recvWindow" = some "5000" ∧
      withoutQueryHeaders headers = [("X-MBX-APIKEY", key)] :=
  ⟨rfl, rfl, rfl, rfl⟩

theorem buildBinanceSignedQs_computeBinanceHeaders
    (hmac : ∀ key text, (env.hmacSha256 key text).length = 32) {canonical : String}
    (h : IsCanonical canonical) :
    buildBinanceSignedQs canonical (computeBinanceHeaders env secret key ts canonical "").headers =
      .ok (signedText env (computeBinanceHeaders env secret key ts canonical ""),
        [("X-MBX-APIKEY", key)]) := by
  obtain ⟨pairs, hne, heq, hsafe⟩ := h.eq_formEncode
  have hempty : canonical ≠ "" := heq ▸ formEncode_ne_empty hne
  have hblanks : canonical.toList.any (· ∈ blanks) = false := by
    simpa [heq] using notMem_blanks_formEncode hsafe
  obtain ⟨hsignature, htimestamp, hwindow, hrest⟩ :=
    @lookup_computeBinanceHeaders env secret key ts canonical
  have hvalues := @all_isSafeQueryValue env secret ts hmac
    (binanceCanonical (binanceFullQuery ts canonical) "")
  simp only [buildBinanceSignedQs, hsignature, htimestamp, hwindow, hrest, Option.getD_some]
  rw [if_neg (not_not.mpr hvalues), if_neg (by simp [hempty, hblanks])]
  congr 2
  apply String.toList_inj.mp
  simp [signedText, computeBinanceHeaders, binanceCanonical, binanceFullQuery, hempty]

theorem binanceSignedUrl_computeBinanceHeaders
    (hmac : ∀ key text, (env.hmacSha256 key text).length = 32) (setting : Option String)
    (path query : String) :
    binanceSignedUrl setting path query (computeBinanceHeaders env secret key ts query "").headers =
      .ok (binanceBaseUrl setting ++ path ++ "?" ++
        signedText env (computeBinanceHeaders env secret key ts query ""),
        [("X-MBX-APIKEY", key)]) := by
  obtain ⟨hsignature, htimestamp, hwindow, hrest⟩ :=
    @lookup_computeBinanceHeaders env secret key ts query
  have hvalues := @all_isSafeQueryValue env secret ts hmac
    (binanceCanonical (binanceFullQuery ts query) "")
  simp only [binanceSignedUrl, hsignature, htimestamp, hwindow, hrest, Option.getD_some]
  rw [if_neg (not_not.mpr hvalues)]
  congr 2
  apply String.toList_inj.mp
  simp [signedText, computeBinanceHeaders, binanceCanonical, binanceFullQuery]

end

theorem questionMark_notMem_binanceBaseUrl (setting : Option String) :
    '?' ∉ (binanceBaseUrl setting).toList := by
  unfold binanceBaseUrl
  split <;> decide

/-- What the gateway sends to Binance is what the enclave signed: for a structured order or cancel
the query is the signed text and its signature, for a read the part of the address after the path
is, and neither is refused. HMAC-SHA256 has a tag of 32 bytes. -/
theorem binance_sends_signed_bytes (env : Env)
    (hmac : ∀ key text, (env.hmacSha256 key text).length = 32) (secret key : String)
    (ts : UInt64) :
    (∀ canonical, IsCanonical canonical →
      buildBinanceSignedQs canonical
          (computeBinanceHeaders env secret key ts canonical "").headers =
        .ok (signedText env (computeBinanceHeaders env secret key ts canonical ""),
          [("X-MBX-APIKEY", key)])) ∧
      ∀ setting path query, '?' ∉ path.toList → ∃ url,
        binanceSignedUrl setting path query
            (computeBinanceHeaders env secret key ts query "").headers =
          .ok (url, [("X-MBX-APIKEY", key)]) ∧
        splitOnce '?' url = some (binanceBaseUrl setting ++ path,
          signedText env (computeBinanceHeaders env secret key ts query "")) := by
  refine ⟨fun canonical h => buildBinanceSignedQs_computeBinanceHeaders hmac h,
    fun setting path query hpath =>
      ⟨_, binanceSignedUrl_computeBinanceHeaders hmac setting path query, ?_⟩⟩
  refine splitOnce_of_toList (by simp) ?_
  simp [questionMark_notMem_binanceBaseUrl setting, hpath]

/-- A limit order, with the tag of its text. -/
theorem binance_sends_signed_bytes_limitOrder :
    buildBinanceSignedQs
        "symbol=BTCUSDT&side=BUY&type=LIMIT&quantity=0.25&price=64000.5&timeInForce=GTC"
        [("X-MBX-APIKEY", "sample-key"), ("recvWindow", "5000"), ("signature",
          "5d7c86b16bc93ed3815596bd88f4718e10b8240c0e6467980fbfdb64a143589c"),
          ("timestamp", "1700000000000")] =
      .ok (Sample.limitOrderText ++ "&signature=" ++
        "5d7c86b16bc93ed3815596bd88f4718e10b8240c0e6467980fbfdb64a143589c",
        [("X-MBX-APIKEY", "sample-key")]) := by
  have hmac : ∀ key text, ((Sample.env Sample.cappedBlob).hmacSha256 key text).length = 32 := by
    intro key text
    simp only [Sample.env]
    split <;> exact length_beBytes _ _
  have hcanonical : buildBinanceOrderQuery
      { symbol := "BTCUSDT", side := "buy", qty := "0.25", ordType := "limit",
        price := some "64000.5" } =
      some "symbol=BTCUSDT&side=BUY&type=LIMIT&quantity=0.25&price=64000.5&timeInForce=GTC" := by
    decide
  have hsent := (binance_sends_signed_bytes (Sample.env Sample.cappedBlob) hmac "sample-secret"
    "sample-key" 1700000000000).1 _ (.inl ⟨_, hcanonical⟩)
  exact hsent

end Signer.Gateway
