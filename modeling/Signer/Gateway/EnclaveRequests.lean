import Signer.Gateway.KillSwitch
import Signer.Gateway.Reconcile
import Signer.Gateway.SignX402
import Signer.Serde
import Signer.Text.Base64

/-!
# Requests to the enclave

What the gateway signs goes to the enclave over a socket, one request and one response at a time.
Before it sends a request it looks up the blob of the key, the circuit breaker and the credentials,
each of which may refuse. The functions are programs that ask for these things. The routes and the
unwind of a stopped customer share two of them, one for requests the caller assembled and one for
structured orders and cancels.
-/

namespace Signer.Gateway

/-! ### What is sent -/

structure VsockRequest where
  head : SignRequest
  order : Option Json := none
  cancel : Option Json := none

/-- A field of type `bool` with `#[serde(default)]`. -/
def readFlag : Option Json → Option Bool
  | none => some false
  | some (.bool b) => some b
  | some _ => none

/-- The enclave's `OrderRequest`. -/
def readOrder : Serde.Reader OrderRequest := fun v => do
  let found ← Serde.record
    ["symbol", "side", "qty", "ord_type", "price", "reduce_only", "client_order_id"] true v
  let symbol ← Serde.mandatory Serde.string (found.lookup "symbol")
  let side ← Serde.mandatory Serde.string (found.lookup "side")
  let qty ← Serde.mandatory Serde.string (found.lookup "qty")
  let ordType ← Serde.mandatory Serde.string (found.lookup "ord_type")
  let price ← Serde.optional Serde.string (found.lookup "price")
  let reduceOnly ← readFlag (found.lookup "reduce_only")
  let clientOrderId ← Serde.optional Serde.string (found.lookup "client_order_id")
  pure { symbol, side, qty, ordType, price, reduceOnly, clientOrderId }

/-- The enclave's `CancelRequest`. -/
def readCancel : Serde.Reader CancelRequest := fun v => do
  let found ← Serde.record ["symbol", "order_id"] true v
  let symbol ← Serde.mandatory Serde.string (found.lookup "symbol")
  let orderId ← Serde.mandatory Serde.string (found.lookup "order_id")
  pure { symbol, orderId }

def VsockRequest.received (v : VsockRequest) : Option SignRequest := do
  let order ← Serde.optional readOrder v.order
  let cancel ← Serde.optional readCancel v.cancel
  pure { v.head with order, cancel }

/-- `OrderParams`, serialized: absent fields are left out. -/
def orderJson (o : OrderRequest) : Json :=
  .object <| [("symbol", .string o.symbol), ("side", .string o.side), ("qty", .string o.qty),
    ("ord_type", .string o.ordType)] ++ Policy.member "price" (o.price.map .string) ++
    [("reduce_only", .bool o.reduceOnly)] ++
    Policy.member "client_order_id" (o.clientOrderId.map .string)

/-- `CancelParams`, serialized. -/
def cancelJson (c : CancelRequest) : Json :=
  .object [("symbol", .string c.symbol), ("order_id", .string c.orderId)]

theorem readCancel_cancelJson (c : CancelRequest) : readCancel (cancelJson c) = some c := by
  have hfound : Serde.record ["symbol", "order_id"] true (cancelJson c) =
      some [("symbol", .string c.symbol), ("order_id", .string c.orderId)] :=
    Serde.record_object (by simp) (by simp)
  simp only [readCancel, hfound]
  rfl

theorem received_of_plain (head : SignRequest) :
    (VsockRequest.mk head none none).received = some { head with order := none, cancel := none } :=
  rfl

theorem received_of_cancel (head : SignRequest) (c : CancelRequest) :
    (VsockRequest.mk head none (some (cancelJson c))).received =
      some { head with order := none, cancel := some c } := by
  have hcancel : Serde.optional readCancel (some (cancelJson c)) = some (some c) :=
    congrArg (Option.map some) (readCancel_cancelJson c)
  simp only [VsockRequest.received, hcancel]
  rfl

/-! ### What is asked -/

inductive LimitGate where
  | request
  | order
  | cancel
  | x402Spend (scope : String) (value : BitVec 128)
  deriving DecidableEq

/-- What the functions ask of the rest of the gateway. -/
inductive GatewayQuery where
  | stateOf (customer : String)
  | transition (customer : String) (level : TenantState) (reason : String)
  | kick (customer : String)
  | limit (token : String) (gate : LimitGate)
  | blob (scope : String)
  | backoffAllows (scope : String)
  | creds
  | nowMs
  | roundTrip (req : VsockRequest)
  | send (venue op method url : String) (headers : HttpHeaders) (body : Option String)
  | sleep (seconds : ℕ)

@[reducible]
def GatewayQuery.Answer : GatewayQuery → Type
  | .stateOf _ => TenantState
  | .transition .. => Except TransitionError Transition
  | .kick _ => Unit
  | .limit .. => LimitDecision
  | .blob _ => Option Bytes
  | .backoffAllows _ => Bool
  | .creds => Option AwsCredentials
  | .nowMs => UInt64
  | .roundTrip _ => Option SignResponse
  | .send .. => Except String VenueResponse
  | .sleep _ => Unit

inductive Refusal where
  | gateway (code : GatewayCode)
  | policyDenied
  | tenant (code : DenyCode)
  deriving DecidableEq

/-- `http_status_for` behind `safe_wire_code`: a code of the enclave that is not on the list of the
gateway is an internal error. -/
def errCodeStatus : ErrCode → ℕ
  | .badRequest | .contextRequired => 400
  | .policyDenied | .policyRequired | .actionNotAllowed | .sizeOverCap | .notionalOverCap
  | .withdrawalNotSignable => 403
  | .payloadTooLarge => 413
  | .rateLimited => 429
  | .unimplementedPolicyField | .receiptsUnavailable => 501
  | .verifyFailed => 502
  | .kmsDecryptDenied => 503
  | _ => 500

/-- The status of `error_response`. -/
def Refusal.status : Refusal → ℕ
  | .gateway .badRequest => 400
  | .gateway .internalError => 500
  | .gateway .rateLimited => 429
  | .gateway .enclaveUnreachable => 503
  | .gateway (.enclave code) => errCodeStatus code
  | .policyDenied => 403
  | .tenant _ => 403

abbrev Serving := Attempt GatewayQuery GatewayQuery.Answer Refusal

/-! ### What is sent when -/

def limitGate (token : String) (gate : LimitGate) : Serving Unit := do
  let decision ← Attempt.query (.limit token gate)
  match denyCode decision with
  | some code => throw (.gateway code)
  | none => pure ()

def lookupBlob (scope : String) : Serving Bytes := do
  let blob ← Attempt.query (.blob scope)
  Attempt.ofOption blob (.gateway .badRequest)

def backoffGate (scope : String) : Serving Unit := do
  let allows ← Attempt.query (.backoffAllows scope)
  Attempt.ensure (allows = true) (.gateway .rateLimited)

def freshCreds : Serving AwsCredentials := do
  let creds ← Attempt.query .creds
  Attempt.ofOption creds (.gateway .internalError)

/-- `vsock::round_trip`, and the refusal that an error of the enclave becomes. -/
def roundTrip (req : VsockRequest) : Serving SignResponse := do
  let resp ← Attempt.query (.roundTrip req)
  let resp ← Attempt.ofOption resp (.gateway .enclaveUnreachable)
  match resp.error with
  | some code => throw (.gateway (.enclave code))
  | none => pure resp

def enclaveActionFor (exchange : String) (kind : Option String) : Option Action :=
  match exchange with
  | "kucoin" => some .signKucoin
  | "binance" | "binance_futures" => some .signBinance
  | "bybit" => some .signBybit
  | "okx" => some .signOkx
  | "hyperliquid_main" =>
    match kind with
    | some "order" => some .signHyperliquidMainOrder
    | some "cancel" => some .signHyperliquidMainCancel
    | _ => none
  | "hyperliquid_testnet" =>
    match kind with
    | some "order" => some .signHyperliquidTestnetOrder
    | some "cancel" => some .signHyperliquidTestnetCancel
    | _ => none
  | "asterdex" => some .signAsterdex
  | _ => none

def keyedRequest (action : Action) (token : String) (blob : Bytes) (creds : AwsCredentials) :
    SignRequest where
  action := action
  protoVersion := 1
  opaqueToken := some token
  awsCredentials := some creds
  ciphertextBlobBase64 := some (Text.base64Encode blob)

/-- The request of `sign_account_read`. -/
def accountReadRequest (action : Action) (token method path body query : String) (blob : Bytes)
    (creds : AwsCredentials) (nowMs : UInt64) : SignRequest :=
  { keyedRequest action token blob creds with
    method := some method
    path := some path
    body := some body
    timestampMs := some nowMs
    query := if query = "" then none else some query }

def signAccountRead (customer token venue method path body query : String) :
    Serving HttpHeaders := do
  let action ← Attempt.ofOption (enclaveActionFor venue none) (.gateway .badRequest)
  let scope := blobKey customer venue
  let blob ← lookupBlob scope
  backoffGate scope
  let creds ← freshCreds
  let nowMs ← Attempt.query .nowMs
  let resp ← roundTrip
    { head := accountReadRequest action token method path body query blob creds nowMs }
  pure (resp.headers.getD [])

structure AgentIntentForward where
  timestampMs : Option UInt64 := none
  intentSignature : Option String := none
  intentNonce : Option String := none

/-- Whether a value is `null`. -/
def isNull : Json → Bool
  | .null => true
  | _ => false

def structuredFields : Json → Option (Option Json × Option Json)
  | .object members =>
    let order := (members.lookup "order").filter fun v => !isNull v
    let cancel := (members.lookup "cancel").filter fun v => !isNull v
    if (members.all fun m => m.1 = "order" ∨ m.1 = "cancel") ∧ (order.isSome ∨ cancel.isSome) then
      some (order, cancel)
    else none
  | _ => none

/-- The request of `sign_structured_request`, without the order and the cancel. -/
def structuredRequest (action : Action) (token method path : String) (intent : AgentIntentForward)
    (blob : Bytes) (creds : AwsCredentials) (ts : UInt64) : SignRequest :=
  { keyedRequest action token blob creds with
    method := some method
    path := some path
    timestampMs := some ts
    intentSignature := intent.intentSignature
    intentNonce := intent.intentNonce }

def signStructuredRequest (customer token keyId : String) (action : Action) (method path : String)
    (structured : Json) (intent : AgentIntentForward) : Serving (String × HttpHeaders) := do
  Attempt.ensure (isSafeKeyId keyId = true) (.gateway .badRequest)
  let scope := blobKey customer keyId
  let blob ← lookupBlob scope
  backoffGate scope
  let creds ← freshCreds
  let fields ← Attempt.ofOption (structuredFields structured) (.gateway .badRequest)
  let ts ← intent.timestampMs.elim (Attempt.query .nowMs) pure
  let resp ← roundTrip
    { head := structuredRequest action token method path intent blob creds ts
      order := fields.1
      cancel := fields.2 }
  let canonical ← Attempt.ofOption (resp.canonicalBody.filter (· ≠ "")) (.gateway .internalError)
  pure (canonical, resp.headers.getD [])

/-! ### What the functions send -/

structure LooksUp (permitted : GatewayQuery → Prop) : Prop where
  limit : ∀ token gate, permitted (.limit token gate)
  blob : ∀ scope, permitted (.blob scope)
  backoffAllows : ∀ scope, permitted (.backoffAllows scope)
  creds : permitted .creds
  nowMs : permitted .nowMs

section

variable {possible : (q : GatewayQuery) → q.Answer → Prop} {permitted : GatewayQuery → Prop}

abbrev Asks (possible : (q : GatewayQuery) → q.Answer → Prop) (permitted : GatewayQuery → Prop)
    {α : Type} (p : Serving α) : Prop :=
  p.Obeys possible permitted fun _ => True

theorem limitGate_asks (hlooks : LooksUp permitted) (token : String) (gate : LimitGate) :
    Asks possible permitted (limitGate token gate) := by
  rw [Asks, limitGate, Attempt.obeys_bind, Attempt.obeys_query]
  refine ⟨hlooks.limit token gate, fun decision _ => ?_⟩
  split <;> simp

theorem lookupBlob_asks (hlooks : LooksUp permitted) (scope : String) :
    Asks possible permitted (lookupBlob scope) := by
  rw [Asks, lookupBlob, Attempt.obeys_bind, Attempt.obeys_query]
  exact ⟨hlooks.blob scope, fun _ _ => by simp⟩

theorem backoffGate_asks (hlooks : LooksUp permitted) (scope : String) :
    Asks possible permitted (backoffGate scope) := by
  rw [Asks, backoffGate, Attempt.obeys_bind, Attempt.obeys_query]
  exact ⟨hlooks.backoffAllows scope, fun _ _ => by simp⟩

theorem freshCreds_asks (hlooks : LooksUp permitted) : Asks possible permitted freshCreds := by
  rw [Asks, freshCreds, Attempt.obeys_bind, Attempt.obeys_query]
  exact ⟨hlooks.creds, fun _ _ => by simp⟩

theorem roundTrip_asks {v : VsockRequest} (h : permitted (.roundTrip v)) :
    Asks possible permitted (roundTrip v) := by
  rw [Asks, roundTrip, Attempt.obeys_bind, Attempt.obeys_query]
  refine ⟨h, fun resp _ => ?_⟩
  rw [Attempt.obeys_bind, Attempt.obeys_ofOption]
  intro resp _
  split <;> simp

theorem signAccountRead_asks (hlooks : LooksUp permitted)
    {customer token venue method path body query : String}
    (hsent : ∀ action blob creds nowMs, enclaveActionFor venue none = some action →
      permitted (.roundTrip
        { head := accountReadRequest action token method path body query blob creds nowMs })) :
    Asks possible permitted (signAccountRead customer token venue method path body query) := by
  rw [Asks, signAccountRead, Attempt.obeys_bind, Attempt.obeys_ofOption]
  intro action haction
  refine (lookupBlob_asks hlooks _).andThen fun blob => ?_
  refine (backoffGate_asks hlooks _).andThen fun _ => ?_
  refine (freshCreds_asks hlooks).andThen fun creds => ?_
  rw [Attempt.obeys_bind, Attempt.obeys_query]
  refine ⟨hlooks.nowMs, fun nowMs _ => ?_⟩
  exact (roundTrip_asks (hsent action blob creds nowMs haction)).andThen fun _ => by simp

theorem signStructuredRequest_asks (hlooks : LooksUp permitted)
    {customer token keyId method path : String} {action : Action} {structured : Json}
    {intent : AgentIntentForward}
    (hsent : ∀ blob creds ts fields, structuredFields structured = some fields →
      permitted (.roundTrip
        { head := structuredRequest action token method path intent blob creds ts
          order := fields.1
          cancel := fields.2 })) :
    Asks possible permitted
      (signStructuredRequest customer token keyId action method path structured intent) := by
  have hstamp : Asks possible permitted
      (intent.timestampMs.elim (Attempt.query GatewayQuery.nowMs) pure : Serving UInt64) := by
    cases intent.timestampMs with
    | none => exact Attempt.obeys_query.mpr ⟨hlooks.nowMs, fun _ _ => trivial⟩
    | some ts => exact Attempt.obeys_pure.mpr trivial
  rw [Asks, signStructuredRequest, Attempt.obeys_bind, Attempt.obeys_ensure]
  intro _
  refine (lookupBlob_asks hlooks _).andThen fun blob => ?_
  refine (backoffGate_asks hlooks _).andThen fun _ => ?_
  refine (freshCreds_asks hlooks).andThen fun creds => ?_
  rw [Attempt.obeys_bind, Attempt.obeys_ofOption]
  intro fields hfields
  refine hstamp.andThen fun ts => ?_
  refine (roundTrip_asks (hsent blob creds ts fields hfields)).andThen fun resp => ?_
  rw [Attempt.obeys_bind, Attempt.obeys_ofOption]
  exact fun _ _ => by simp

end

theorem structuredFields_cancel (c : CancelRequest) :
    structuredFields (.object [("cancel", cancelJson c)]) = some (none, some (cancelJson c)) :=
  rfl

namespace Sample

def creds : AwsCredentials :=
  { accessKeyId := "id", secretAccessKey := "key", sessionToken := "token" }

/-- A world in which the enclave answers as given, and no venue does. -/
def enclaveWorld (reply : VsockRequest → Option SignResponse)
    (_ : List (Program.Event GatewayQuery GatewayQuery.Answer)) : (q : GatewayQuery) → q.Answer
  | .stateOf _ => .cancelOnly
  | .transition .. => .ok (.unchanged .cancelOnly)
  | .kick _ => ()
  | .limit .. => .allow
  | .blob _ => some [98, 108, 111, 98]
  | .backoffAllows _ => true
  | .creds => some creds
  | .nowMs => 1700000000000
  | .roundTrip v => reply v
  | .send .. => .error "connection refused"
  | .sleep _ => ()

end Sample

end Signer.Gateway
