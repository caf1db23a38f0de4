import Signer.Gateway.EnclaveRequests
import Signer.Gateway.SignedQueries

/-!
# Hedges

A hedge is two market orders. Both are signed first; then the gateway sends both to their venues and
reports what it knows about each leg: accepted, rejected, or unknown, where the order may be live
although no readable receipt came back. Only a leg known to be rejected may be sent again, so the
report must not state more than the venue did.
-/

namespace Signer.Gateway

open Text

/-! ### The request -/

structure HedgeSettings where
  binanceEnv : Option String
  okxEnv : Option String
  debug : String → String
  fromSlice : Bytes → Option Json
  utf8Lossy : Bytes → String

structure HedgeLegSpec where
  keyId : String
  venueName : Option String := none
  order : OrderRequest

def HedgeLegSpec.venue (leg : HedgeLegSpec) : String :=
  toAsciiLowercase (trim (leg.venueName.getD leg.keyId))

def legEnv (settings : HedgeSettings) : String → Option String
  | "binance" =>
    some (if contains "testnet" (binanceBaseUrl settings.binanceEnv).toList then "testnet"
      else "live")
  | "okx" => some (if okxIsDemo settings.okxEnv then "demo" else "live")
  | _ => none

def ensureMarket (settings : HedgeSettings) (number : ℕ) (leg : HedgeLegSpec) :
    Except String Unit :=
  if eqIgnoreAsciiCase (trim leg.order.ordType) "market" then .ok ()
  else
    .error ("leg " ++ toString number ++ " is ord_type=" ++ settings.debug leg.order.ordType ++
      ": /hedge is market-only in v1 — a resting limit leg cannot be distinguished from a " ++
      "filled one yet")

def sharedClientOrderId (a b : HedgeLegSpec) : Option String :=
  match a.order.clientOrderId, b.order.clientOrderId with
  | some ida, some idb => if trim ida ≠ "" ∧ ida = idb then some ida else none
  | _, _ => none

/-- `validate_hedge_shape`: the two legs. -/
def validateHedgeShape (settings : HedgeSettings) :
    List HedgeLegSpec → Except String (HedgeLegSpec × HedgeLegSpec)
  | [a, b] => do
    ensureMarket settings 1 a
    ensureMarket settings 2 b
    if a.venue = b.venue ∧ a.order.symbol = b.order.symbol ∧
        eqIgnoreAsciiCase a.order.side b.order.side = true then
      throw "both legs are the same venue+symbol+side — that's a double-down, not a hedge"
    if a.venue = b.venue then
      match sharedClientOrderId a b with
      | some id =>
        throw ("both legs are venue=" ++ a.venue ++ " with the same client_order_id=" ++
          settings.debug id ++ " — the venue rejects the second as a duplicate, leaving ONE leg " ++
          "live. Give each leg its own id, or omit it and let the venue assign one")
      | none => pure ()
    match legEnv settings a.venue, legEnv settings b.venue with
    | some ea, some eb =>
      if ¬ (ea = "live" ↔ eb = "live") then
        throw ("legs straddle environments (" ++ ea ++ " vs " ++ eb ++ ") — one REAL and one " ++
          "SIMULATED leg is a naked live position, not a hedge. Align SIGNER_BINANCE_ENV / " ++
          "SIGNER_OKX_ENV first.")
      else pure (a, b)
    | _, _ => pure (a, b)
  | _ => .error "hedge requires exactly 2 legs"

/-! ### The sign phase -/

structure SignedLeg where
  venue : String
  url : String
  headers : HttpHeaders
  body : String
  venue_mem : venue = "binance" ∨ venue = "okx"

def signLeg (settings : HedgeSettings) (customer token : String) (leg : HedgeLegSpec) :
    Serving SignedLeg :=
  let keyId := toAsciiLowercase (trim leg.keyId)
  let payload := Json.object [("order", orderJson leg.order)]
  match leg.venue with
  | "binance" => do
    let (canonical, headers) ← signStructuredRequest customer token keyId .signBinanceOrder "POST"
      "/fapi/v1/order" payload {}
    match buildBinanceSignedQs canonical headers with
    | .error _ => throw (.gateway .internalError)
    | .ok (body, headers) =>
      pure {
        venue := "binance"
        url := binanceBaseUrl settings.binanceEnv ++ "/fapi/v1/order"
        headers := insertEntry "Content-Type" "application/x-www-form-urlencoded" headers
        body
        venue_mem := .inl rfl }
  | "okx" => do
    let (canonical, headers) ← signStructuredRequest customer token keyId .signOkxOrder "POST"
      "/api/v5/trade/order" payload {}
    let headers :=
      if okxIsDemo settings.okxEnv then insertEntry "x-simulated-trading" "1" headers else headers
    pure {
      venue := "okx"
      url := okxBaseUrl ++ "/api/v5/trade/order"
      headers := insertEntry "Content-Type" "application/json" headers
      body := canonical
      venue_mem := .inr rfl }
  | _ => throw (.gateway .badRequest)

inductive LegOutcome where
  | ok
  | rejected
  | unknown
  deriving DecidableEq, Repr

structure HedgeLegResult where
  venue : String
  phase : String
  outcome : LegOutcome
  ok : Bool
  env : Option String := none
  httpStatus : Option ℕ := none
  response : Option Json := none
  error : Option String := none
  durationMs : Option UInt64 := none

def signErrorLabel : ℕ → String
  | 400 => "bad_request"
  | 401 => "unauthorized"
  | 403 => "policy_denied"
  | 429 => "rate_limited"
  | 502 => "enclave_unreachable"
  | _ => "sign_failed"

def signFailedLeg (spec : HedgeLegSpec) (signed : Except Refusal SignedLeg) : HedgeLegResult where
  venue := spec.venue
  phase := "sign_failed"
  outcome := .rejected
  ok := false
  httpStatus := match signed with
    | .error refusal => some refusal.status
    | .ok _ => none
  error := match signed with
    | .error refusal => some (signErrorLabel refusal.status)
    | .ok _ => some "not_executed_peer_leg_failed"

def dominance : List ℕ := [403, 401, 429, 502, 400]

def dominantStatus (failing : List ℕ) : ℕ :=
  ((dominance.find? (· ∈ failing)).or failing.head?).getD 500

inductive SignPhase where
  | badRequest (hint : String)
  | limited (refusal : Refusal)
  | rejected (status : ℕ) (legs : List HedgeLegResult)
  | signed (a b : SignedLeg)

def failingStatuses (signed : List (Except Refusal SignedLeg)) : List ℕ :=
  signed.filterMap fun
    | .error refusal => some refusal.status
    | .ok _ => none

/-- `post_hedge`, up to the execute phase. One order is counted, and both legs are signed or
refused before the outcome of either is looked at. -/
def postHedge (settings : HedgeSettings) (customer token : String) (legs : List HedgeLegSpec) :
    Program GatewayQuery GatewayQuery.Answer SignPhase := do
  match validateHedgeShape settings legs with
  | .error hint => pure (.badRequest hint)
  | .ok (a, b) =>
    match ← (limitGate token .order).run with
    | .error refusal => pure (.limited refusal)
    | .ok () =>
      let signedA ← (signLeg settings customer token a).run
      let signedB ← (signLeg settings customer token b).run
      match signedA, signedB with
      | .ok legA, .ok legB => pure (.signed legA legB)
      | _, _ =>
        pure (.rejected (dominantStatus (failingStatuses [signedA, signedB]))
          [signFailedLeg a signedA, signFailedLeg b signedB])

/-! ### What is signed -/

/-- Two market orders that can hedge each other. -/
structure HedgePair (settings : HedgeSettings) (a b : HedgeLegSpec) : Prop where
  market : ∀ leg ∈ [a, b], eqIgnoreAsciiCase (trim leg.order.ordType) "market" = true
  not_doubled : ¬(a.venue = b.venue ∧ a.order.symbol = b.order.symbol ∧
    eqIgnoreAsciiCase a.order.side b.order.side = true)
  own_ids : a.venue = b.venue → sharedClientOrderId a b = none
  one_world : ∀ ea eb, legEnv settings a.venue = some ea → legEnv settings b.venue = some eb →
    (ea = "live" ↔ eb = "live")

/-- What the sign phase asks: no venue is called, and the enclave sees the orders of the legs. -/
def HedgeAsks (legs : List HedgeLegSpec) : GatewayQuery → Prop
  | .limit .. | .blob _ | .backoffAllows _ | .creds | .nowMs => True
  | .roundTrip v => ∃ leg ∈ legs, v.order = some (orderJson leg.order) ∧ v.cancel = none
  | _ => False

/-- A structure, since to reduce the bare statement is to run the program. -/
structure SignsLeg (legs : List HedgeLegSpec) (leg : HedgeLegSpec) (sign : Serving SignedLeg) :
    Prop where
  obeys : sign.Obeys (fun _ _ => True) (HedgeAsks legs) fun signed => signed.venue = leg.venue

section

variable {settings : HedgeSettings} {customer token : String} {legs : List HedgeLegSpec}
  {a b : HedgeLegSpec}

theorem ensureMarket_eq_ok {number : ℕ} {leg : HedgeLegSpec} :
    ensureMarket settings number leg = .ok () ↔
      eqIgnoreAsciiCase (trim leg.order.ordType) "market" = true := by
  unfold ensureMarket
  split <;> simp_all

theorem hedgePair_of_validateHedgeShape (h : validateHedgeShape settings legs = .ok (a, b)) :
    legs = [a, b] ∧ HedgePair settings a b := by
  unfold validateHedgeShape at h
  split at h
  case h_2 => cases h
  rename_i la lb
  obtain ⟨_, hla, h⟩ := bind_eq_ok.mp h
  obtain ⟨_, hlb, h⟩ := bind_eq_ok.mp h
  dsimp only at h
  split at h
  · cases h
  rename_i hdoubled
  obtain ⟨rfl, rfl⟩ : la = a ∧ lb = b := by
    repeat' split at h
    all_goals first | exact Prod.mk.inj (Except.ok.inj h) | cases h
  refine ⟨rfl, by simp [ensureMarket_eq_ok.mp hla, ensureMarket_eq_ok.mp hlb], hdoubled, ?_, ?_⟩
  · intro hvenue
    rw [if_pos hvenue] at h
    cases hshared : sharedClientOrderId la lb with
    | none => rfl
    | some id =>
      rw [hshared] at h
      cases h
  · intro ea eb hea heb
    by_contra hworlds
    simp only [hea, heb, hworlds, not_false_eq_true, if_true] at h
    repeat' split at h
    all_goals cases h

theorem hedgeAsks_looksUp (legs : List HedgeLegSpec) : LooksUp (HedgeAsks legs) :=
  ⟨fun _ _ => trivial, fun _ => trivial, fun _ => trivial, trivial, trivial⟩

theorem structuredFields_order (o : OrderRequest) :
    structuredFields (.object [("order", orderJson o)]) = some (some (orderJson o), none) :=
  rfl

theorem signOrder_asks {leg : HedgeLegSpec} (hleg : leg ∈ legs) (keyId path : String)
    (action : Action) : Asks (fun _ _ => True) (HedgeAsks legs) (signStructuredRequest customer
      token keyId action "POST" path (.object [("order", orderJson leg.order)]) {}) := by
  apply signStructuredRequest_asks (hedgeAsks_looksUp legs)
  intro blob creds ts fields hfields
  obtain rfl := Option.mem_unique (structuredFields_order _) hfields
  exact ⟨leg, hleg, rfl, rfl⟩

theorem signsLeg_signLeg (settings : HedgeSettings) (customer token : String) {leg : HedgeLegSpec}
    (hleg : leg ∈ legs) : SignsLeg legs leg (signLeg settings customer token leg) := by
  constructor
  unfold signLeg
  generalize leg.venue = venue, toAsciiLowercase (trim leg.keyId) = keyId
  dsimp only
  split
  · refine (signOrder_asks hleg _ _ _).andThen fun signed => ?_
    split <;> simp [*]
  · refine (signOrder_asks hleg _ _ _).andThen fun signed => ?_
    simp [*]
  · simp

end

/-- The sign phase calls no venue, and shows the enclave no order but those of the legs. Both legs
come out signed only if they are two market orders that can hedge each other, each for its venue. -/
theorem hedge_signs_pair (settings : HedgeSettings) (customer token : String)
    (legs : List HedgeLegSpec) :
    (postHedge settings customer token legs).Obeys (fun _ _ => True) (HedgeAsks legs)
      fun phase => ∀ a b, phase = .signed a b → ∃ la lb, legs = [la, lb] ∧
        HedgePair settings la lb ∧ a.venue = la.venue ∧ b.venue = lb.venue := by
  unfold postHedge
  cases hshape : validateHedgeShape settings legs with
  | error hint => simp
  | ok pair =>
    obtain ⟨rfl, hpair⟩ := hedgePair_of_validateHedgeShape hshape
    have hsigns : ∀ leg ∈ [pair.1, pair.2], SignsLeg _ leg _ := fun _ =>
      signsLeg_signLeg settings customer token
    have hA := hsigns pair.1 (by simp)
    have hB := hsigns pair.2 (by simp)
    dsimp only
    generalize signLeg settings customer token pair.1 = signA,
      signLeg settings customer token pair.2 = signB at hA hB ⊢
    rw [Program.obeys_bind]
    refine (limitGate_asks (hedgeAsks_looksUp _) token .order).run.mono fun gate _ => ?_
    cases gate with
    | error refusal => simp
    | ok =>
      rw [Program.obeys_bind]
      refine Program.Obeys.mono hA.obeys fun signedA hA => ?_
      rw [Program.obeys_bind]
      refine Program.Obeys.mono hB.obeys fun signedB hB => ?_
      cases signedA <;> cases signedB
      case ok.ok => simpa using ⟨hpair, hA _ rfl, hB _ rfl⟩
      all_goals simp

namespace Sample

def hedgeSettings (bodies : List (Bytes × Json)) : HedgeSettings where
  binanceEnv := none
  okxEnv := none
  debug s := "\"" ++ s ++ "\""
  fromSlice b := bodies.lookup b
  utf8Lossy _ := ""

def okxSpec (symbol side : String) : HedgeLegSpec where
  keyId := "okx"
  order := { symbol, side, qty := "1", ordType := "market" }

/-- The sign phase, where the enclave signs a body that is the symbol of the order. -/
def signedHedge (legs : List HedgeLegSpec) : SignPhase :=
  ((postHedge (hedgeSettings []) "acme" "sample-token" legs).exec (enclaveWorld fun v => some
    { canonicalBody := v.order.bind fun order => (order.get "symbol").bind Json.asStr }) []).2

end Sample

open Gateway.Sample in
/-- A spot leg and a swap leg of OKX are signed, and can hedge each other. -/
theorem hedge_signs_pair_okx :
    ∃ a b, signedHedge [okxSpec "BTC-USDT" "buy", okxSpec "BTC-USDT-SWAP" "sell"] = .signed a b ∧
      HedgePair (hedgeSettings []) (okxSpec "BTC-USDT" "buy") (okxSpec "BTC-USDT-SWAP" "sell") := by
  obtain ⟨a, b, hsigned⟩ : ∃ a b,
      signedHedge [okxSpec "BTC-USDT" "buy", okxSpec "BTC-USDT-SWAP" "sell"] = .signed a b :=
    ⟨_, _, rfl⟩
  obtain ⟨_, _, ⟨⟩, hpair, -⟩ :=
    (hedge_signs_pair (hedgeSettings []) "acme" "sample-token" _).result (fun _ _ => trivial)
      a b hsigned
  exact ⟨a, b, hsigned, hpair⟩

/-! ### The execute phase -/

def maxVenueBodyBytes : ℕ := 64 * 1024

structure SendError where
  isConnect : Bool
  text : String

structure VenueReceipt where
  status : ℕ
  chunks : List (Except String Bytes)

abbrev Transport := Except SendError VenueReceipt

/-- `read_capped_body`, with what is already read. -/
def readCappedBody : List (Except String Bytes) → Bytes → Except String Bytes
  | [], buf => .ok buf
  | .error e :: _, _ => .error ("body read failed: " ++ e)
  | .ok chunk :: rest, buf =>
    if buf.length + chunk.length > maxVenueBodyBytes then
      .error ("venue response exceeds " ++ toString maxVenueBodyBytes ++
        " bytes — not an order receipt")
    else readCappedBody rest (buf ++ chunk)

def deadStatuses : List String := ["EXPIRED", "REJECTED", "EXPIRED_IN_MATCH"]

def firstItem (v : Json) : Option Json := v.asArray.bind List.head?

def okxVerdict (v : Json) : Option Json :=
  ((v.get "data").bind firstItem).bind (Json.get "sCode")

def classifyReceipt (venue : String) (v : Json) : LegOutcome :=
  match venue with
  | "binance" =>
    if ((v.get "code").bind asI64).any (· < 0) then .rejected
    else if ((v.get "status").bind Json.asStr).any (· ∈ deadStatuses) then .rejected
    else .ok
  | "okx" =>
    if (v.get "code").bind Json.asStr ≠ some "0" then .rejected
    else
      match (okxVerdict v).bind Json.asStr with
      | none | some "0" => .ok
      | some _ => .rejected
  | _ => .rejected

def legResult (settings : HedgeSettings) (leg : SignedLeg) (outcome : LegOutcome)
    (httpStatus : Option ℕ) (response : Option Json) (error : Option String)
    (durationMs : UInt64) : HedgeLegResult where
  venue := leg.venue
  phase := "signed"
  outcome := outcome
  ok := outcome = .ok
  env := legEnv settings leg.venue
  httpStatus := httpStatus
  response := response
  error := error
  durationMs := some durationMs

/-- `execute_leg`, for what came of the request and how long it took. -/
def executeLeg (settings : HedgeSettings) (leg : SignedLeg) (transport : Transport)
    (durationMs : UInt64) : HedgeLegResult :=
  match transport with
  | .error e =>
    legResult settings leg (if e.isConnect then .rejected else .unknown) none none
      (some ("venue call failed: " ++ e.text)) durationMs
  | .ok receipt =>
    match readCappedBody receipt.chunks [] with
    | .error detail =>
      legResult settings leg .unknown (some receipt.status) none (some detail) durationMs
    | .ok bytes =>
      if ¬ (200 ≤ receipt.status ∧ receipt.status < 300) then
        legResult settings leg (if receipt.status ≥ 500 then .unknown else .rejected)
          (some receipt.status) (settings.fromSlice bytes)
          (some ("venue returned HTTP " ++ toString receipt.status)) durationMs
      else
        match settings.fromSlice bytes with
        | some v =>
          legResult settings leg (classifyReceipt leg.venue v) (some receipt.status) (some v) none
            durationMs
        | none =>
          legResult settings leg .unknown (some receipt.status)
            (some (.string (settings.utf8Lossy (bytes.take 512))))
            (some "non-JSON venue response (edge/WAF block?)") durationMs

def hedgeStatus (outcomes : List LegOutcome) : String :=
  if .unknown ∈ outcomes then "unknown"
  else
    match outcomes.count .ok with
    | 2 => "executed"
    | 1 => "partial"
    | _ => "failed"

/-- The execute phase of `post_hedge`: the status and the legs of the report. -/
def executeHedge (settings : HedgeSettings) (a b : SignedLeg) (sentA sentB : Transport)
    (msA msB : UInt64) : String × List HedgeLegResult :=
  let resultA := executeLeg settings a sentA msA
  let resultB := executeLeg settings b sentB msB
  (hedgeStatus [resultA.outcome, resultB.outcome], [resultA, resultB])

/-! ### What is known of a leg -/

def NotConnected (sent : Transport) : Prop := ∃ e, sent = .error e ∧ e.isConnect = true

def AnsweredIn (low high : ℕ) (sent : Transport) : Prop :=
  ∃ receipt, sent = .ok receipt ∧ low ≤ receipt.status ∧ receipt.status < high

def Receives (settings : HedgeSettings) (sent : Transport) (v : Json) : Prop :=
  ∃ receipt bytes, sent = .ok receipt ∧ (200 ≤ receipt.status ∧ receipt.status < 300) ∧
    readCappedBody receipt.chunks [] = .ok bytes ∧ settings.fromSlice bytes = some v

/-- A value that says the order was rejected: a negative code or a dead status of Binance, a code
or a verdict of OKX other than `"0"`. -/
def StatesRejection (venue : String) (v : Json) : Prop :=
  if venue = "binance" then
    (∃ n, (v.get "code").bind asI64 = some n ∧ n < 0) ∨
      ∃ status ∈ deadStatuses, v.get "status" = some (.string status)
  else
    (∃ code, v.get "code" = some code ∧ code ≠ .string "0") ∨
      ∃ verdict, okxVerdict v = some verdict ∧ verdict ≠ .string "0"

/-- A value that says the order was accepted: an object that does not say it was rejected, with
the code `"0"` on OKX. -/
def StatesAcceptance (venue : String) (v : Json) : Prop :=
  v.isObject = true ∧ ¬ StatesRejection venue v ∧
    (venue = "okx" → v.get "code" = some (.string "0"))

/-- The venue keeps to its API as far as the report depends on it: a body that can be read comes
with a status that is no redirect, a receipt is an object, and one of OKX has a code and, under the
code `"0"`, a verdict that is a string. -/
structure Regular (settings : HedgeSettings) (venue : String) (sent : Transport) : Prop where
  status : ∀ receipt body, sent = .ok receipt → readCappedBody receipt.chunks [] = .ok body →
    200 ≤ receipt.status ∧ (receipt.status < 300 ∨ 400 ≤ receipt.status)
  isObject : ∀ v, Receives settings sent v → v.isObject = true
  code : ∀ v, Receives settings sent v → venue = "okx" → v.get "code" ≠ none
  verdict : ∀ v, Receives settings sent v → venue = "okx" → v.get "code" = some (.string "0") →
    ∀ verdict, okxVerdict v = some verdict → ∃ text, verdict = .string text

/-- The outcome says what is known of the order, and no more. -/
structure Truthful (settings : HedgeSettings) (venue : String) (sent : Transport)
    (outcome : LegOutcome) : Prop where
  ok : outcome = .ok → ∃ v, Receives settings sent v ∧ StatesAcceptance venue v
  rejected : outcome = .rejected → NotConnected sent ∨ AnsweredIn 400 500 sent ∨
    ∃ v, Receives settings sent v ∧ StatesRejection venue v
  unknown : ¬ (∃ v, Receives settings sent v ∧ StatesAcceptance venue v) →
    ¬ (NotConnected sent ∨ AnsweredIn 400 500 sent ∨
      ∃ v, Receives settings sent v ∧ StatesRejection venue v) → outcome = .unknown

theorem Truthful.of_known {settings : HedgeSettings} {venue : String} {sent : Transport}
    {outcome : LegOutcome}
    (hok : outcome = .ok → ∃ v, Receives settings sent v ∧ StatesAcceptance venue v)
    (hrejected : outcome = .rejected → NotConnected sent ∨ AnsweredIn 400 500 sent ∨
      ∃ v, Receives settings sent v ∧ StatesRejection venue v) :
    Truthful settings venue sent outcome where
  ok := hok
  rejected := hrejected
  unknown haccepted hrejection := by
    cases outcome with
    | ok => exact absurd (hok rfl) haccepted
    | rejected => exact absurd (hrejected rfl) hrejection
    | unknown => rfl

theorem asStr_eq_some {v : Json} {s : String} : v.asStr = some s ↔ v = .string s := by
  cases v <;> simp [Json.asStr]

theorem classifyReceipt_binance (v : Json) :
    classifyReceipt "binance" v = .rejected ∧ StatesRejection "binance" v ∨
      classifyReceipt "binance" v = .ok ∧ ¬ StatesRejection "binance" v := by
  have hcode : ((v.get "code").bind asI64).any (· < 0) = true ↔
      ∃ n, (v.get "code").bind asI64 = some n ∧ n < 0 := by
    simp [Option.any_eq_true]
  have hstatus : ((v.get "status").bind Json.asStr).any (· ∈ deadStatuses) = true ↔
      ∃ status ∈ deadStatuses, v.get "status" = some (.string status) := by
    simp [Option.any_eq_true, Option.bind_eq_some_iff, asStr_eq_some, and_comm]
  simp only [classifyReceipt, StatesRejection, if_true, ← hcode, ← hstatus]
  split
  · rename_i h
    exact .inl ⟨rfl, .inl h⟩
  · rename_i hcode
    split
    · rename_i h
      exact .inl ⟨rfl, .inr h⟩
    · rename_i hstatus
      exact .inr ⟨rfl, by simp [hcode, hstatus]⟩

theorem classifyReceipt_okx {v : Json} (hcode : v.get "code" ≠ none)
    (hverdict : v.get "code" = some (.string "0") →
      ∀ verdict, okxVerdict v = some verdict → ∃ text, verdict = .string text) :
    classifyReceipt "okx" v = .rejected ∧ StatesRejection "okx" v ∨
      classifyReceipt "okx" v = .ok ∧ ¬ StatesRejection "okx" v ∧
        v.get "code" = some (.string "0") := by
  have hokx : ¬ ("okx" = "binance") := by decide
  obtain ⟨code, hcode⟩ := Option.ne_none_iff_exists'.mp hcode
  simp only [classifyReceipt, StatesRejection, if_neg hokx]
  by_cases hzero : code = .string "0"
  · subst hzero
    rw [if_neg (by simp [hcode, Json.asStr])]
    cases hfound : okxVerdict v with
    | none => exact .inr ⟨rfl, by simp [hcode], hcode⟩
    | some verdict =>
      obtain ⟨text, rfl⟩ := hverdict hcode verdict hfound
      by_cases htext : text = "0"
      · subst htext
        exact .inr ⟨rfl, by simp [hcode], hcode⟩
      · refine .inl ⟨?_, .inr ⟨_, rfl, by simpa using htext⟩⟩
        simp only [Option.bind_some, Json.asStr]
  · have hne : (v.get "code").bind Json.asStr ≠ some "0" := by
      rw [hcode, Option.bind_some, ne_eq, asStr_eq_some]
      exact hzero
    exact .inl ⟨if_pos hne, .inl ⟨code, hcode, hzero⟩⟩

section

variable {settings : HedgeSettings} {leg : SignedLeg} {sent : Transport} {ms : UInt64}

theorem classifyReceipt_truthful (hregular : Regular settings leg.venue sent) {v : Json}
    (hv : Receives settings sent v) :
    Truthful settings leg.venue sent (classifyReceipt leg.venue v) := by
  rcases leg.venue_mem with hvenue | hvenue
  · rw [hvenue]
    rcases classifyReceipt_binance v with ⟨hrejected, hstates⟩ | ⟨hok, hstates⟩
    · rw [hrejected]
      exact .of_known (by simp) fun _ => .inr (.inr ⟨v, hv, hstates⟩)
    · rw [hok]
      refine .of_known (fun _ => ⟨v, hv, hregular.isObject v hv, hstates, ?_⟩) (by simp)
      intro h
      exact absurd h (by decide)
  · have hcode := hregular.code v hv hvenue
    have hverdict := hregular.verdict v hv hvenue
    rw [hvenue]
    rcases classifyReceipt_okx hcode hverdict with ⟨hrejected, hstates⟩ | ⟨hok, hstates, hzero⟩
    · rw [hrejected]
      exact .of_known (by simp) fun _ => .inr (.inr ⟨v, hv, hstates⟩)
    · rw [hok]
      exact .of_known (fun _ => ⟨v, hv, hregular.isObject v hv, hstates, fun _ => hzero⟩) (by simp)

theorem executeLeg_truthful (hregular : Regular settings leg.venue sent) :
    Truthful settings leg.venue sent (executeLeg settings leg sent ms).outcome := by
  cases sent with
  | error e =>
    simp only [executeLeg]
    cases hconnect : e.isConnect with
    | false => exact .of_known (by simp [legResult]) (by simp [legResult])
    | true => exact .of_known (by simp [legResult]) fun _ => .inl ⟨e, rfl, hconnect⟩
  | ok receipt =>
    simp only [executeLeg]
    cases hbody : readCappedBody receipt.chunks [] with
    | error detail => exact .of_known (by simp [legResult]) (by simp [legResult])
    | ok bytes =>
      have hstatus := hregular.status receipt bytes rfl hbody
      dsimp only
      by_cases hsuccess : 200 ≤ receipt.status ∧ receipt.status < 300
      · rw [if_neg (not_not.mpr hsuccess)]
        cases hv : settings.fromSlice bytes with
        | none => exact .of_known (by simp [legResult]) (by simp [legResult])
        | some v => exact classifyReceipt_truthful hregular ⟨receipt, bytes, rfl, hsuccess, hbody, hv⟩
      · rw [if_pos hsuccess]
        by_cases hserver : receipt.status ≥ 500
        · rw [if_pos hserver]
          exact .of_known (by simp [legResult]) (by simp [legResult])
        · rw [if_neg hserver]
          refine .of_known (by simp [legResult]) fun _ => .inr (.inl ⟨receipt, rfl, ?_⟩)
          omega

end

def certainStatuses : List (ℕ × String) := [(2, "executed"), (1, "partial"), (0, "failed")]

theorem hedgeStatus_certain (a b : LegOutcome) {n : ℕ} {status : String}
    (hmem : (n, status) ∈ certainStatuses) (h : hedgeStatus [a, b] = status) :
    .unknown ∉ [a, b] ∧ [a, b].count .ok = n := by
  have hall : ∀ pair ∈ certainStatuses, hedgeStatus [a, b] = pair.2 →
      .unknown ∉ [a, b] ∧ [a, b].count .ok = pair.1 := by
    cases a <;> cases b <;> decide
  exact hall _ hmem h

/-- The report of a hedge says no more than what is known: where the venues keep to their API, a
leg is accepted only with a receipt that says so, rejected only if the connection was never made,
the status is 4xx or a receipt says so, and unknown otherwise; and the hedge is executed, partial or
failed only if no leg is unknown and two, one or no legs were accepted. -/
theorem hedge_report_truthful (settings : HedgeSettings) (a b : SignedLeg)
    (sentA sentB : Transport) (msA msB : UInt64) :
    ∃ status resultA resultB,
      executeHedge settings a b sentA sentB msA msB = (status, [resultA, resultB]) ∧
      (Regular settings a.venue sentA → Truthful settings a.venue sentA resultA.outcome) ∧
      (Regular settings b.venue sentB → Truthful settings b.venue sentB resultB.outcome) ∧
      ∀ n, (n, status) ∈ certainStatuses →
        .unknown ∉ [resultA.outcome, resultB.outcome] ∧
          [resultA.outcome, resultB.outcome].count .ok = n :=
  ⟨_, _, _, rfl, executeLeg_truthful, executeLeg_truthful,
    fun _ hmem => hedgeStatus_certain _ _ hmem rfl⟩

namespace Sample

def binanceLeg : SignedLeg where
  venue := "binance"
  url := "https://testnet.binancefuture.com/fapi/v1/order"
  headers := [("X-MBX-APIKEY", "sample-key")]
  body := "symbol=BTCUSDT&side=BUY&type=MARKET&quantity=0.25"
  venue_mem := .inl rfl

def okxLeg : SignedLeg where
  venue := "okx"
  url := "https://www.okx.com/api/v5/trade/order"
  headers := [("OK-ACCESS-KEY", "sample-key")]
  body := "\x7b\"instId\":\"BTC-USDT-SWAP\"\x7d"
  venue_mem := .inr rfl

def answered (text : String) : Transport := .ok { status := 200, chunks := [.ok (bytes text)] }

def newOrder : String × Json :=
  ("\x7b\"orderId\":1,\"status\":\"NEW\"\x7d",
    .object [("orderId", .number (.posInt 1)), ("status", .string "NEW")])

def rejectedOrder : String × Json :=
  ("\x7b\"code\":\"0\",\"data\":[\x7b\"sCode\":\"51008\"\x7d]\x7d",
    .object [("code", .string "0"), ("data", .array [.object [("sCode", .string "51008")]])])

def bareCode : String × Json :=
  ("\x7b\"code\":200\x7d", .object [("code", .number (.posInt 200))])

def hedgeBodies : List (Bytes × Json) :=
  [newOrder, rejectedOrder, bareCode].map fun body => (bytes body.1, body.2)

theorem receives_answered {text : String} {v w : Json}
    (hfound : hedgeBodies.lookup (bytes text) = some w)
    (hsize : (bytes text).length ≤ maxVenueBodyBytes)
    (h : Receives (hedgeSettings hedgeBodies) (answered text) v) : v = w := by
  obtain ⟨receipt, bytes, hsent, -, hbody, hv⟩ := h
  cases hsent
  have hread : readCappedBody [.ok (Text.bytes text)] [] = .ok (Text.bytes text) := by
    rw [readCappedBody, if_neg (by simpa using hsize)]
    rfl
  obtain rfl := Except.ok.inj (hread.symm.trans hbody)
  exact Option.mem_unique hv hfound

theorem regular_newOrder :
    Regular (hedgeSettings hedgeBodies) binanceLeg.venue (answered newOrder.1) where
  status receipt _ h _ := by
    cases h
    decide
  isObject v hv := by
    obtain rfl := receives_answered (w := newOrder.2) rfl (by decide) hv
    rfl
  code _ _ h := absurd h (by decide)
  verdict _ _ h := absurd h (by decide)

theorem regular_rejectedOrder :
    Regular (hedgeSettings hedgeBodies) okxLeg.venue (answered rejectedOrder.1) where
  status receipt _ h _ := by
    cases h
    decide
  isObject v hv := by
    obtain rfl := receives_answered (w := rejectedOrder.2) rfl (by decide) hv
    rfl
  code v hv _ := by
    obtain rfl := receives_answered (w := rejectedOrder.2) rfl (by decide) hv
    exact Option.some_ne_none _
  verdict v hv _ _ verdict h := by
    obtain rfl := receives_answered (w := rejectedOrder.2) rfl (by decide) hv
    exact ⟨"51008", (Option.some.inj h).symm⟩

end Sample

/-- One leg accepted and one rejected: the hedge is partial, and both outcomes are truthful. -/
theorem hedge_report_truthful_partial :
    ∃ resultA resultB,
      executeHedge (Sample.hedgeSettings Sample.hedgeBodies) Sample.binanceLeg Sample.okxLeg
          (Sample.answered Sample.newOrder.1) (Sample.answered Sample.rejectedOrder.1) 80 120 =
        ("partial", [resultA, resultB]) ∧
      Truthful (Sample.hedgeSettings Sample.hedgeBodies) "binance"
        (Sample.answered Sample.newOrder.1) resultA.outcome ∧
      Truthful (Sample.hedgeSettings Sample.hedgeBodies) "okx"
        (Sample.answered Sample.rejectedOrder.1) resultB.outcome ∧
      [resultA.outcome, resultB.outcome].count .ok = 1 := by
  obtain ⟨status, resultA, resultB, hreport, ha, hb, hstatus⟩ :=
    hedge_report_truthful (Sample.hedgeSettings Sample.hedgeBodies) Sample.binanceLeg Sample.okxLeg
      (Sample.answered Sample.newOrder.1) (Sample.answered Sample.rejectedOrder.1) 80 120
  obtain rfl : status = "partial" := (congrArg Prod.fst hreport).symm.trans (by decide)
  exact ⟨resultA, resultB, hreport, ha Sample.regular_newOrder, hb Sample.regular_rejectedOrder,
    (hstatus 1 (by decide)).2⟩

/-- A Binance receipt without an order id is reported as an accepted order. -/
theorem bare_code_reported_ok :
    (executeLeg (Sample.hedgeSettings Sample.hedgeBodies) Sample.binanceLeg
        (Sample.answered Sample.bareCode.1) 80).outcome = .ok ∧
      Receives (Sample.hedgeSettings Sample.hedgeBodies) (Sample.answered Sample.bareCode.1)
        Sample.bareCode.2 ∧
      Sample.bareCode.2.get "orderId" = none :=
  ⟨by decide, ⟨_, _, rfl, by decide, rfl, rfl⟩, rfl⟩

end Signer.Gateway
