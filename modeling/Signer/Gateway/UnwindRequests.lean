import Signer.Gateway.EnclaveRequests
import Signer.LimitClauses
import Signer.OkxCaps

/-!
# What the unwind of a customer has signed

The job that unwinds a stopped customer holds nothing but the customer's token. It lists and cancels
orders through the functions of the routes, and each request has to pass the gates of the enclave
like any other: the mode of the customer, the policy, the reads and cancels a capped key may sign,
and the caps.
-/

namespace Signer.Gateway

open Text

variable {method path query : String}

/-! ### What the job asks -/

inductive UnwindAsks (orders : List OpenOrder) : VenueQuery → Prop
  | listOkx : UnwindAsks orders (.signAccountRead "okx" "GET" "/api/v5/trade/orders-pending" "")
  | listBinance : UnwindAsks orders (.signAccountRead "binance" "GET" "/fapi/v1/openOrders" "")
  | cancelOkx {order : OpenOrder} (h : order ∈ orders) :
      UnwindAsks orders (.signOkxCancel order.symbol order.orderId)
  | cancelBinance {order : OpenOrder} (h : order ∈ orders) :
      UnwindAsks orders (.signAccountRead "binance" "DELETE" "/fapi/v1/allOpenOrders"
        ("symbol=" ++ order.symbol))
  | send (venue op method url : String) (headers : HttpHeaders) (body : Option String) :
      UnwindAsks orders (.send venue op method url headers body)
  | sleep (seconds : ℕ) : UnwindAsks orders (.sleep seconds)

abbrev StaysWithin {α : Type} (orders : List OpenOrder) (p : VenueProgram α) : Prop :=
  p.Obeys (fun _ _ => True) (UnwindAsks orders) fun _ => True

namespace GatewayOps

variable {ops : GatewayOps} {orders : List OpenOrder}

theorem send_staysWithin (venue op method url : String) (headers : HttpHeaders)
    (body : Option String) (raw : List RawExchange) :
    StaysWithin orders (send venue op method url headers body raw) := by
  refine .ask (.send ..) fun answer => ?_
  rcases answer with e | response
  · exact trivial
  · dsimp only
    split <;> exact trivial

theorem signedRead_staysWithin {venue : String}
    (hasks : UnwindAsks orders (.signAccountRead venue method path query)) :
    StaysWithin orders (signedRead venue method path query) := by
  have hfrom : ∀ left attempt, StaysWithin orders
      (signedReadFrom venue method path query left attempt) := by
    intro left
    induction left with
    | zero => exact fun _ => trivial
    | succ left ih =>
      intro attempt
      refine .ask hasks fun answer => ?_
      rcases answer with status | headers
      · dsimp only
        split
        · exact .ask (.sleep _) fun _ => ih (attempt + 1)
        · exact trivial
      · exact trivial
  exact hfrom cancelAttempts 1

theorem listOpen_staysWithin (venue : String) : StaysWithin orders (ops.listOpen venue) := by
  rw [StaysWithin, listOpen]
  split
  · refine (signedRead_staysWithin .listOkx).andThen fun signed => ?_
    rcases signed with e | headers
    · exact trivial
    · dsimp only
      exact (send_staysWithin ..).andThen fun _ => trivial
  · split
    · refine (signedRead_staysWithin .listBinance).andThen fun signed => ?_
      rcases signed with e | headers
      · exact trivial
      · dsimp only
        split
        · exact trivial
        · exact (send_staysWithin ..).andThen fun _ => trivial
    · exact trivial

theorem cancelOkxOne_staysWithin {order : OpenOrder} (horder : order ∈ orders)
    (raw : List RawExchange) : StaysWithin orders (ops.cancelOkxOne order raw) := by
  have hfrom : ∀ left attempt last raw,
      StaysWithin orders (ops.cancelOkxFrom order left attempt last raw) := by
    intro left
    induction left with
    | zero => exact fun _ _ _ => trivial
    | succ left ih =>
      intro attempt last raw
      refine .ask (.cancelOkx horder) fun signed => ?_
      rcases signed with status | ⟨canonical, headers⟩
      · dsimp only
        split
        · exact .ask (.sleep _) fun _ => ih ..
        · exact trivial
      · dsimp only
        refine (send_staysWithin ..).andThen fun sent => ?_
        split
        · exact trivial
        · split
          · exact .ask (.sleep _) fun _ => ih ..
          · exact ih ..
  exact hfrom cancelAttempts 1 "" raw

theorem cancelBinanceSymbol_staysWithin {order : OpenOrder} (horder : order ∈ orders)
    (raw : List RawExchange) : StaysWithin orders (ops.cancelBinanceSymbol order.symbol raw) := by
  have hfrom : ∀ left attempt last raw,
      StaysWithin orders (ops.cancelBinanceFrom order.symbol left attempt last raw) := by
    intro left
    induction left with
    | zero => exact fun _ _ _ => trivial
    | succ left ih =>
      intro attempt last raw
      have hagain : ∀ last raw, StaysWithin orders (do
          if attempt < cancelAttempts then
            let _ ← Program.query (VenueQuery.sleep (20 * attempt))
          ops.cancelBinanceFrom order.symbol left (attempt + 1) last raw) := by
        intro last raw
        dsimp only
        split
        · exact .ask (.sleep _) fun _ => ih ..
        · exact ih ..
      refine (signedRead_staysWithin (.cancelBinance horder)).andThen fun signed => ?_
      rcases signed with e | headers
      · exact trivial
      · dsimp only
        split
        · exact trivial
        · refine (send_staysWithin ..).andThen fun sent => ?_
          split
          · split
            · exact hagain ..
            · exact trivial
          · exact hagain ..
  exact hfrom cancelAttempts 1 "" raw

theorem cancelOkx_staysWithin {batch : List OpenOrder} (hbatch : ∀ order ∈ batch, order ∈ orders)
    (raw : List RawExchange) : StaysWithin orders (ops.cancelOkx batch raw) := by
  induction batch generalizing raw with
  | nil => exact trivial
  | cons order batch ih =>
    obtain ⟨horder, hrest⟩ := List.forall_mem_cons.mp hbatch
    refine (cancelOkxOne_staysWithin horder raw).andThen fun one => ?_
    exact (ih hrest one.2).andThen fun _ => trivial

theorem cancelBinance_staysWithin {batch : List OpenOrder}
    (hbatch : ∀ order ∈ batch, order ∈ orders) (bySymbol : List (String × CancelOutcome))
    (raw : List RawExchange) : StaysWithin orders (ops.cancelBinance batch bySymbol raw) := by
  induction batch generalizing bySymbol raw with
  | nil => exact trivial
  | cons order batch ih =>
    obtain ⟨horder, hrest⟩ := List.forall_mem_cons.mp hbatch
    rw [StaysWithin, cancelBinance]
    split
    · exact ih hrest bySymbol raw
    · exact (cancelBinanceSymbol_staysWithin horder raw).andThen fun one => ih hrest _ one.2

theorem cancel_staysWithin (venue : String) : StaysWithin orders (ops.cancel venue orders) := by
  rw [StaysWithin, cancel]
  split
  · exact cancelOkx_staysWithin (fun _ h => h) []
  · split
    · exact (cancelBinance_staysWithin (fun _ h => h) [] []).andThen fun _ => trivial
    · exact trivial

end GatewayOps

/-! ### What the gateway makes of it -/

def answerVenue (customer token : String) :
    (q : VenueQuery) → Program GatewayQuery GatewayQuery.Answer q.Answer
  | .signAccountRead venue method path query => do
    let signed ← (signAccountRead customer token venue method path "" query).run
    pure (signed.mapError Refusal.status)
  | .signOkxCancel symbol orderId => do
    let structured := .object [("cancel", cancelJson ⟨symbol, orderId⟩)]
    let signed ← (signStructuredRequest customer token "okx" .signOkxCancel "POST"
      "/api/v5/trade/cancel-order" structured {}).run
    pure (signed.mapError Refusal.status)
  | .send venue op method url headers body =>
    Program.query (GatewayQuery.send venue op method url headers body)
  | .sleep seconds => Program.query (GatewayQuery.sleep seconds)

def unwindCalls (ops : GatewayOps) (customer token venue : String) (orders : List OpenOrder) :
    Program GatewayQuery GatewayQuery.Answer Unit := do
  let _ ← (ops.listOpen venue).interp (answerVenue customer token)
  let _ ← (ops.cancel venue orders).interp (answerVenue customer token)
  pure ()

def okxListing (token : String) (blob : Bytes) (creds : AwsCredentials) (nowMs : UInt64) :
    SignRequest :=
  accountReadRequest .signOkx token "GET" "/api/v5/trade/orders-pending" "" "" blob creds nowMs

def binanceListing (token : String) (blob : Bytes) (creds : AwsCredentials) (nowMs : UInt64) :
    SignRequest :=
  accountReadRequest .signBinance token "GET" "/fapi/v1/openOrders" "" "" blob creds nowMs

def binanceCancel (symbol token : String) (blob : Bytes) (creds : AwsCredentials)
    (nowMs : UInt64) : SignRequest :=
  accountReadRequest .signBinance token "DELETE" "/fapi/v1/allOpenOrders" "" ("symbol=" ++ symbol)
    blob creds nowMs

def okxCancel (symbol orderId token : String) (blob : Bytes) (creds : AwsCredentials)
    (nowMs : UInt64) : SignRequest :=
  { structuredRequest .signOkxCancel token "POST" "/api/v5/trade/cancel-order" {} blob creds nowMs
    with cancel := some { symbol, orderId } }

def Lists (token : String) (req : SignRequest) : Prop :=
  ∃ blob creds nowMs, req = okxListing token blob creds nowMs ∨
    req = binanceListing token blob creds nowMs

def Cancels (token : String) (req : SignRequest) (order : OpenOrder) : Prop :=
  ∃ blob creds nowMs, req = binanceCancel order.symbol token blob creds nowMs ∨
    req = okxCancel order.symbol order.orderId token blob creds nowMs

/-! ### What the gateway sends for the job -/

section

variable {customer token : String} {orders : List OpenOrder}

def UnwindSends (token : String) (orders : List OpenOrder) : GatewayQuery → Prop
  | .roundTrip v => ∃ req, v.received = some req ∧
      (Lists token req ∨ ∃ order ∈ orders, Cancels token req order)
  | _ => True

theorem unwindSends_looksUp : LooksUp (UnwindSends token orders) where
  limit _ _ := trivial
  blob _ := trivial
  backoffAllows _ := trivial
  creds := trivial
  nowMs := trivial

theorem answerVenue_sends {q : VenueQuery} (hasked : UnwindAsks orders q) :
    (answerVenue customer token q).Obeys (fun _ _ => True) (UnwindSends token orders)
      fun _ => True := by
  cases hasked with
  | listOkx =>
    refine (signAccountRead_asks unwindSends_looksUp ?_).run.andThen fun _ => trivial
    rintro action blob creds nowMs haction
    obtain rfl : Action.signOkx = action := Option.some.inj haction
    exact ⟨_, received_of_plain _, .inl ⟨blob, creds, nowMs, .inl rfl⟩⟩
  | listBinance =>
    refine (signAccountRead_asks unwindSends_looksUp ?_).run.andThen fun _ => trivial
    rintro action blob creds nowMs haction
    obtain rfl : Action.signBinance = action := Option.some.inj haction
    exact ⟨_, received_of_plain _, .inl ⟨blob, creds, nowMs, .inr rfl⟩⟩
  | @cancelOkx order horder =>
    refine (signStructuredRequest_asks unwindSends_looksUp ?_).run.andThen fun _ => trivial
    rintro blob creds ts fields hfields
    obtain rfl := Option.mem_unique (structuredFields_cancel _) hfields
    exact ⟨_, received_of_cancel _ _, .inr ⟨order, horder, blob, creds, ts, .inr rfl⟩⟩
  | @cancelBinance order horder =>
    refine (signAccountRead_asks unwindSends_looksUp ?_).run.andThen fun _ => trivial
    rintro action blob creds nowMs haction
    obtain rfl : Action.signBinance = action := Option.some.inj haction
    exact ⟨_, received_of_plain _, .inr ⟨order, horder, blob, creds, nowMs, .inl rfl⟩⟩
  | send | sleep =>
    rw [answerVenue, Program.obeys_query]
    exact ⟨trivial, fun _ _ => trivial⟩

theorem unwindCalls_sends (ops : GatewayOps) (customer token venue : String)
    (orders : List OpenOrder) :
    (unwindCalls ops customer token venue orders).Obeys (fun _ _ => True)
      (UnwindSends token orders) fun _ => True := by
  have hanswer : ∀ q, UnwindAsks orders q → (answerVenue customer token q).Obeys (fun _ _ => True)
      (UnwindSends token orders) fun _ => True := fun q hq => answerVenue_sends hq
  refine ((GatewayOps.listOpen_staysWithin venue).interp hanswer).andThen fun _ => ?_
  exact ((GatewayOps.cancel_staysWithin venue).interp hanswer).andThen fun _ => trivial

end

/-! ### What the enclave makes of it -/

/-- Order caps are all that the policy restricts. -/
structure OnlyOrderCaps (p : Policy) (caps : List OrderAssetCap) : Prop where
  orderCaps : p.orderCaps = some caps
  allowedActions : p.allowedActions = none
  allowedMethods : p.allowedMethods = none
  allowedPathPrefixes : p.allowedPathPrefixes = none
  deniedPathPrefixes : p.deniedPathPrefixes = none
  maxRequestsPerMinute : p.maxRequestsPerMinute = none
  intentPubkey : p.intentPubkey = none
  label_short : ∀ label, p.label = some label → label.length ≤ 128

/-- The caps list the symbol, and the venue's names pass as tokens. -/
structure Cancellable (caps : List OrderAssetCap) (order : OpenOrder) : Prop where
  listed : ∃ cap ∈ caps, cap.symbol = order.symbol
  symbol : isToken order.symbol = true
  orderId : isToken order.orderId = true

def CompleteSecret (env : Env) (action : Action) (secretJson : Json) : Prop :=
  if action = .signBinance then
    ∃ pair, env.keySecretFromValue secretJson = some pair ∧ pair.isComplete = true
  else ∃ triple, env.passphraseSecretFromValue secretJson = some triple ∧ triple.isComplete = true

/-- The passphrase can stand in a header. -/
def PrintablePassphrase (env : Env) (action : Action) (secretJson : Json) : Prop :=
  action ≠ .signBinance → ∀ triple, env.passphraseSecretFromValue secretJson = some triple →
    triple.passphrase.toList.all isHeaderChar = true

/-- The caller is known and within its rate, and its blob loads. -/
structure Admitted (env : Env) (amb : Ambient) (req : SignRequest) (s : Enclave)
    (identity : ResolvedIdentity) (p : Policy) (secretJson : Json) : Prop where
  known : resolveIdentity env req s = some identity
  rate : (checkRate env amb req s).1 = true
  loads : ∃ s' t, (loadAndParseBlob env amb req identity).Returns
    { s with limiter := (checkRate env amb req s).2 } (some p, secretJson) s' t
  secret : CompleteSecret env req.action secretJson

def cappedRouteAllows (req : SignRequest) : Bool :=
  match req.action with
  | .signBinance => genericCappedOpAllowed "binance" (req.method.getD "") (req.path.getD "")
      (req.query.getD "") (req.body.getD "")
  | .signOkx => genericCappedOpAllowed "okx" (req.method.getD "")
      (okxRequestPath (req.path.getD "") req.query) "" (req.body.getD "")
  | _ => true

structure PassesGates (env : Env) (identity : ResolvedIdentity) (p : Policy) (req : SignRequest) :
    Prop where
  mode : tenantModeGate identity req = .ok ()
  policy : ∃ hash, enforcePolicy env (some p) req = .ok hash
  cappedRoute : cappedRouteAllows req = true
  cap : ∀ cancel, req.cancel = some cancel →
    enforceOrderCap (some p) cancel.symbol none none = .ok ()

/-- The request is answered with a signature. -/
def SignsFor (env : Env) (amb : Ambient) (req : SignRequest) (s : Enclave) : Prop :=
  (handle env amb req s).1.answered = true ∧
    ∃ message, .signed message ∈ (handle env amb req s).1.trace

section

variable {env : Env} {amb : Ambient} {req : SignRequest} {s : Enclave}
  {identity : ResolvedIdentity} {p : Policy} {caps : List OrderAssetCap} {secretJson : Json}
  {token : String} {order : OpenOrder}

theorem OnlyOrderCaps.rulesPass (h : OnlyOrderCaps p caps) (req : SignRequest) :
    RulesPass p req where
  caps_of_intent := by simp [h.intentPubkey]
  action_allowed := by simp [h.allowedActions]
  not_hl_of_intent := by simp [h.intentPubkey]
  method_allowed := by simp [Policy.allowsMethod, h.allowedMethods]
  path_allowed := by simp [Policy.allowsPath, h.allowedPathPrefixes]
  path_not_denied := by simp [Policy.deniesPath, h.deniedPathPrefixes]
  label_short := h.label_short
  no_rate_clause := h.maxRequestsPerMinute

theorem OnlyOrderCaps.enforcePolicy_ok (h : OnlyOrderCaps p caps)
    (hwrite : ∀ policy : Policy, (env.jsonToVec policy.toJson).isSome = true) (req : SignRequest) :
    ∃ hash, enforcePolicy env (some p) req = .ok hash := by
  have hhash : (computePolicyHash env p).isSome = true := by
    rw [computePolicyHash, Option.isSome_map]
    exact hwrite _
  exact ⟨computePolicyHash env p, enforcePolicy_some_ok_iff.mpr ⟨h.rulesPass req, hhash, rfl⟩⟩

theorem OnlyOrderCaps.enforceOrderCap_ok (h : OnlyOrderCaps p caps) {symbol : String}
    (hlisted : ∃ cap ∈ caps, cap.symbol = symbol) :
    enforceOrderCap (some p) symbol none none = .ok () := by
  have hfound : (caps.find? fun c => c.symbol = symbol).isSome = true := by
    simpa [List.find?_isSome] using hlisted
  obtain ⟨entry, hentry⟩ := Option.isSome_iff_exists.mp hfound
  simp [enforceOrderCap, h.orderCaps, hentry]

theorem tenantModeGate_of_allows (hmode : identity.mode = .active ∨ identity.mode = .cancelOnly)
    (h : cancelOnlyAllows req = true) : tenantModeGate identity req = .ok () := by
  rcases hmode with hmode | hmode <;> simp [tenantModeGate, hmode, h]

theorem opens_of_loads {s' : Enclave} {t : List Event} {hash : Option String}
    (hloads : (loadAndParseBlob env amb req identity).Returns s (some p, secretJson) s' t)
    (hpolicy : enforcePolicy env (some p) req = .ok hash) :
    ∃ venue, Opens env amb req identity s ⟨some p, secretJson, hash⟩ venue s' := by
  obtain ⟨venue, _, parsed, _, _, hvenue, -, -, -, -, hparsed, -, rfl⟩ :=
    loadAndParseBlob_returns.mp hloads
  obtain ⟨hp, hsecret⟩ := Prod.mk.inj hparsed
  refine ⟨venue, hvenue, ?_, hpolicy⟩
  rw [← hp, ← hsecret] at hloads
  exact hloads

theorem read_or_delete (h : method = "GET" ∨ method = "DELETE") :
    method ∈ allowedMethods ∧ toAsciiUppercase (trim method) = method := by
  rcases h with rfl | rfl <;> decide

theorem cancelOnlyAllows_accountRead {action : Action} {body : String}
    (haction : action ∈ [Action.signKucoin, .signBinance, .signBybit, .signOkx, .signAsterdex])
    (hmethod : method = "GET" ∨ method = "DELETE") (blob : Bytes) (creds : AwsCredentials)
    (nowMs : UInt64) :
    cancelOnlyAllows (accountReadRequest action token method path body query blob creds nowMs) =
      true := by
  have hupper := (read_or_delete hmethod).2
  simp only [cancelOnlyAllows, accountReadRequest, keyedRequest, Option.elim_some, hupper,
    decide_eq_true_eq]
  exact .inr (.inr (.inr (.inr ⟨haction, hmethod⟩)))

theorem query_accountReadRequest (action : Action) (method path body query : String) (blob : Bytes)
    (creds : AwsCredentials) (nowMs : UInt64) :
    (accountReadRequest action token method path body query blob creds nowMs).query.getD "" =
      query := by
  by_cases hquery : query = "" <;> simp [accountReadRequest, hquery]

theorem Admitted.signed (hadmitted : Admitted env amb req s identity p secretJson)
    (hwrite : ∀ policy : Policy, (env.jsonToVec policy.toJson).isSome = true)
    (hcaps : OnlyOrderCaps p caps) (action : Action) (haction : req.action = action)
    (hreceipted : isReceiptedAction action = true)
    (hversion : requiredProtoVersion ≤ req.protoVersion)
    (hmode : tenantModeGate identity req = .ok ()) (hroute : cappedRouteAllows req = true)
    (hcap : ∀ cancel, req.cancel = some cancel →
      enforceOrderCap (some p) cancel.symbol none none = .ok ())
    (hsigns : ∀ s₀ s₁ hash venue, Opens env amb req identity s₀ ⟨some p, secretJson, hash⟩ venue s₁ →
      ∃ intent message resp, (dispatch env amb req identity).Returns s₀ resp s₁
        (signTrace identity venue ⟨some p, secretJson, hash⟩ intent message)) :
    PassesGates env identity p req ∧ SignsFor env amb req s := by
  obtain ⟨hash, hpolicy⟩ := hcaps.enforcePolicy_ok hwrite req
  obtain ⟨s', t, hloads⟩ := hadmitted.loads
  obtain ⟨venue, hopens⟩ := opens_of_loads hloads hpolicy
  obtain ⟨intent, message, resp, hrun⟩ := hsigns _ _ _ _ hopens
  obtain ⟨hanswered, htrace⟩ := handle_of_returns (haction ▸ hreceipted) hversion hadmitted.known
    hadmitted.rate hmode hrun
  refine ⟨⟨hmode, ⟨hash, hpolicy⟩, hroute, hcap⟩, hanswered, message, ?_⟩
  rw [htrace]
  exact signed_mem_signTrace.mpr rfl

variable (hwrite : ∀ policy : Policy, (env.jsonToVec policy.toJson).isSome = true)
  (hcaps : OnlyOrderCaps p caps) (hmode : identity.mode = .active ∨ identity.mode = .cancelOnly)
  {blob : Bytes} {creds : AwsCredentials} {nowMs : UInt64}

include hwrite hcaps hmode

theorem binance_accountRead_signed (hmethod : method = "GET" ∨ method = "DELETE")
    (hroute : genericCappedOpAllowed "binance" method path query "" = true)
    (hreq : req = accountReadRequest .signBinance token method path "" query blob creds nowMs)
    (hadmitted : Admitted env amb req s identity p secretJson) :
    PassesGates env identity p req ∧ SignsFor env amb req s := by
  subst hreq
  have hallowed : cappedRouteAllows (accountReadRequest .signBinance token method path "" query
      blob creds nowMs) = true := by
    rw [← query_accountReadRequest .signBinance method path "" query blob creds nowMs] at hroute
    exact hroute
  obtain ⟨pair, hpair, hcomplete⟩ : ∃ pair, env.keySecretFromValue secretJson = some pair ∧
      pair.isComplete = true := hadmitted.secret
  exact hadmitted.signed hwrite hcaps .signBinance rfl (by decide) (UInt8.le_refl _)
    (tenantModeGate_of_allows hmode (cancelOnlyAllows_accountRead (by simp) hmethod ..)) hallowed nofun
    fun s₀ s₁ hash venue hopens => ⟨_, _, handleSignBinance_signs.mpr ⟨method, "", nowMs, _, venue,
      pair, rfl, rfl, rfl, (read_or_delete hmethod).1, hopens, fun _ => hallowed, hpair, hcomplete,
      rfl⟩⟩

theorem okx_accountRead_signed (hmethod : method = "GET" ∨ method = "DELETE")
    (hroute : genericCappedOpAllowed "okx" method path "" "" = true)
    (hreq : req = accountReadRequest .signOkx token method path "" "" blob creds nowMs)
    (hadmitted : Admitted env amb req s identity p secretJson)
    (hprintable : PrintablePassphrase env req.action secretJson) :
    PassesGates env identity p req ∧ SignsFor env amb req s := by
  subst hreq
  obtain ⟨triple, htriple, hcomplete⟩ : ∃ triple,
      env.passphraseSecretFromValue secretJson = some triple ∧ triple.isComplete = true :=
    hadmitted.secret
  exact hadmitted.signed hwrite hcaps .signOkx rfl (by decide) (UInt8.le_refl _)
    (tenantModeGate_of_allows hmode (cancelOnlyAllows_accountRead (by simp) hmethod ..)) hroute nofun
    fun s₀ s₁ hash venue hopens => ⟨_, _, handleSignOkx_of_opens htriple hcomplete
      (hprintable (by decide : Action.signOkx ≠ .signBinance) triple htriple) rfl rfl rfl rfl
      (read_or_delete hmethod).1 hopens fun _ => hroute⟩

omit hwrite hcaps hmode in
theorem isSafeParamValue_of_isToken {v : String} (h : isToken v = true) :
    isSafeParamValue v = true := by
  simp only [isToken, isSafeParamValue, decide_eq_true_eq, List.all_eq_true] at h ⊢
  refine ⟨h.1, fun c hc => ?_⟩
  rcases h.2 c hc with hc | hc | hc
  · exact .inl hc
  · exact .inr (.inl hc)
  · exact .inr (.inr (.inl hc))

omit hwrite hcaps hmode in
theorem singleFilter_formPiece {v : String} (h : isToken v = true) (key : String) :
    singleFilter (formPiece (key, v)) key = true := by
  have hkey : stripPrefix key (formPiece (key, v)) = some ("=" ++ v) :=
    stripPrefix_eq_some_iff.mpr (String.append_assoc ..)
  have hvalue : stripPrefix "=" ("=" ++ v) = some v := stripPrefix_eq_some_iff.mpr rfl
  simp [singleFilter, hkey, hvalue, h]

theorem okxCancel_signed (horder : Cancellable caps order)
    (hreq : req = okxCancel order.symbol order.orderId token blob creds nowMs)
    (hadmitted : Admitted env amb req s identity p secretJson)
    (hprintable : PrintablePassphrase env req.action secretJson) :
    PassesGates env identity p req ∧ SignsFor env amb req s := by
  subst hreq
  have hgate : tenantModeGate identity (okxCancel order.symbol order.orderId token blob creds nowMs)
      = .ok () := by
    have hname : endsWith Action.signOkxCancel.name "_cancel" = true := by decide
    exact tenantModeGate_of_allows hmode (decide_eq_true (.inr (.inr (.inl hname))))
  have hcap := hcaps.enforceOrderCap_ok horder.listed
  have htext : buildOkxCancelBody ⟨order.symbol, order.orderId⟩ = some ("\x7b\"instId\":\"" ++
      order.symbol ++ "\",\"ordId\":\"" ++ order.orderId ++ "\"\x7d") := by
    simp [buildOkxCancelBody, isSafeParamValue_of_isToken horder.symbol,
      isSafeParamValue_of_isToken horder.orderId]
  obtain ⟨triple, htriple, hcomplete⟩ : ∃ triple,
      env.passphraseSecretFromValue secretJson = some triple ∧ triple.isComplete = true :=
    hadmitted.secret
  refine hadmitted.signed hwrite hcaps .signOkxCancel rfl (by decide) (UInt8.le_refl _) hgate rfl ?_
    fun s₀ s₁ hash venue hopens => ⟨_, _, handleSignOkxCancel_of_opens htriple hcomplete
      (hprintable (by decide : Action.signOkxCancel ≠ .signBinance) triple htriple) rfl rfl hopens
      hcap (by simp [hcaps.intentPubkey]) htext⟩
  intro cancel hsent
  cases hsent
  exact hcap

end

/-- Every request that the unwind of a customer sends for a venue is the listing of a venue or the
cancel of an order. Under a policy of order caps alone, in active and in cancel-only mode, the
listings and the cancels of orders of listed symbols pass the gates of the enclave and are signed,
if the caller is known, the limiter admits the request, the blob loads with a complete secret and,
on OKX, the passphrase can be sent in a header. -/
theorem unwind_requests_signed {env : Env} {amb : Ambient} {s : Enclave}
    {identity : ResolvedIdentity} {p : Policy} {caps : List OrderAssetCap} {secretJson : Json}
    (hwrite : ∀ policy : Policy, (env.jsonToVec policy.toJson).isSome = true)
    (hcaps : OnlyOrderCaps p caps)
    (hmode : identity.mode = .active ∨ identity.mode = .cancelOnly) (ops : GatewayOps)
    (customer token venue : String) (orders : List OpenOrder)
    (world : List (Program.Event GatewayQuery GatewayQuery.Answer) → (q : GatewayQuery) → q.Answer)
    {v : VsockRequest} {reply : Option SignResponse}
    (hsent : ⟨.roundTrip v, reply⟩ ∈
      ((unwindCalls ops customer token venue orders).exec world []).1) :
    ∃ req, v.received = some req ∧
      (Lists token req ∨ ∃ order ∈ orders, Cancels token req order) ∧
      ((Lists token req ∨ ∃ order ∈ orders, Cancels token req order ∧ Cancellable caps order) →
        Admitted env amb req s identity p secretJson →
        PrintablePassphrase env req.action secretJson →
        PassesGates env identity p req ∧ SignsFor env amb req s) := by
  have hasked := (unwindCalls_sends ops customer token venue orders).exec
    (fun _ _ => trivial) hsent
  obtain ⟨req, hreceived, hkind⟩ : UnwindSends token orders (.roundTrip v) := by
    simpa using hasked
  refine ⟨req, hreceived, hkind, ?_⟩
  rintro (⟨blob, creds, nowMs, hreq | hreq⟩ | ⟨order, -, ⟨blob, creds, nowMs, hreq | hreq⟩, horder⟩)
    hadmitted hprintable
  · exact okx_accountRead_signed hwrite hcaps hmode (.inl rfl) (by decide) hreq hadmitted hprintable
  · exact binance_accountRead_signed hwrite hcaps hmode (.inl rfl) (by decide) hreq hadmitted
  · have hroute : genericCappedOpAllowed "binance" "DELETE" "/fapi/v1/allOpenOrders"
        ("symbol=" ++ order.symbol) "" = true :=
      singleFilter_formPiece horder.symbol "symbol"
    exact binance_accountRead_signed hwrite hcaps hmode (.inr rfl) hroute hreq hadmitted
  · exact okxCancel_signed hwrite hcaps hmode horder hreq hadmitted hprintable

namespace Sample

open Signer.Sample

def silentWorld : List (Program.Event GatewayQuery GatewayQuery.Answer) →
    (q : GatewayQuery) → q.Answer :=
  enclaveWorld fun _ => none

def silentOps : GatewayOps where
  format := { display := fun _ => "", debug := fun _ => "" }
  okxIsDemo := false
  binanceSignedUrl _ _ _ := .error "internal_error"

def restingOrder : OpenOrder := { venue := "okx", symbol := "BTC-USDT", orderId := "7341" }

def silentRun : List (Program.Event GatewayQuery GatewayQuery.Answer) :=
  ((unwindCalls silentOps customer token "okx" [restingOrder]).exec silentWorld []).1

def listing : SignRequest := okxListing token [98, 108, 111, 98] creds 1700000000000

def cancelling : SignRequest :=
  okxCancel "BTC-USDT" "7341" token [98, 108, 111, 98] creds 1700000000000

def cancellingSent : VsockRequest where
  head := structuredRequest .signOkxCancel token "POST" "/api/v5/trade/cancel-order" {}
    [98, 108, 111, 98] creds 1700000000000
  cancel := some (cancelJson ⟨"BTC-USDT", "7341"⟩)

theorem listing_sent : ⟨.roundTrip { head := listing }, none⟩ ∈ silentRun :=
  List.mem_of_getElem? (i := 4) rfl

theorem cancelling_sent : ⟨.roundTrip cancellingSent, none⟩ ∈ silentRun :=
  List.mem_of_getElem? (i := 9) rfl

theorem okxPolicy_onlyOrderCaps : OnlyOrderCaps okxPolicy
    [{ symbol := "BTC-USDT", maxQty := "0.5", maxNotional := some "40000" }] where
  orderCaps := rfl
  allowedActions := rfl
  allowedMethods := rfl
  allowedPathPrefixes := rfl
  deniedPathPrefixes := rfl
  maxRequestsPerMinute := rfl
  intentPubkey := rfl
  label_short := nofun

theorem loads_of_isOk {a : Answers} {amb : Ambient} {req : SignRequest}
    {caller : ResolvedIdentity} {s : Enclave} {policy : Policy} {secret : Json}
    (hparsed : a.parsed = .withPolicy policy secret)
    (hok : ((loadAndParseBlob (env a) amb req caller).run s).result.isOk = true) :
    ∃ s' t, (loadAndParseBlob (env a) amb req caller).Returns s (some policy, secret) s' t := by
  obtain ⟨r, s', t, hret, -⟩ := Proc.exists_returns_of_run (P := fun _ => True) ⟨hok, trivial⟩
  obtain ⟨_, plaintext, parsed, _, _, -, -, -, hparse, -, rfl, -, -⟩ :=
    loadAndParseBlob_returns.mp hret
  obtain ⟨value, hvalue, hparse⟩ := Option.bind_eq_some_iff.mp hparse
  obtain ⟨-, hvalue⟩ := Option.ite_none_right_eq_some.mp hvalue
  have hpolicy : (value.get "policy").isSome = true := by
    rw [← Option.some.inj hvalue, hparsed]
    rfl
  rw [if_pos hpolicy] at hparse
  obtain rfl : ParsedBlob.withPolicy policy secret = parsed := by
    simpa [env, hparsed, ParsedBlob.policy, ParsedBlob.secretJson] using hparse
  exact ⟨s', t, hret⟩

def umlautSecret : Json :=
  .object [("key", .string "sample-key"), ("secret", .string "sample-secret"),
    ("passphrase", .string "gespräch")]

def umlautBlob : Answers :=
  { okxBlob with
    plaintext := "\x7b\"policy\":" ++ okxPolicyText ++ ",\"secret\":\x7b\"key\":\"sample-key\"," ++
      "\"secret\":\"sample-secret\",\"passphrase\":\"gespräch\"\x7d\x7d"
    parsed := .withPolicy okxPolicy umlautSecret }

end Sample

open Signer.Sample Sample in
/-- The cancel that the job sends for the resting order is signed in cancel-only mode. -/
theorem unwind_requests_signed_sample :
    SignsFor (env okxBlob) {} cancelling (enclave ["okx"] .cancelOnly) := by
  have hadmitted : Admitted (env okxBlob) {} cancelling (enclave ["okx"] .cancelOnly)
      (identity ["okx"] .cancelOnly) okxPolicy okxSecret :=
    { known := by decide +kernel
      rate := by decide +kernel
      loads := loads_of_isOk rfl (by decide +kernel)
      secret := ⟨_, rfl, by decide⟩ }
  have hwrite : ∀ policy : Policy, ((env okxBlob).jsonToVec policy.toJson).isSome = true :=
    fun _ => rfl
  obtain ⟨req, hreceived, -, hsigned⟩ := unwind_requests_signed hwrite
    okxPolicy_onlyOrderCaps (.inr (rfl : (identity ["okx"] .cancelOnly).mode = _)) silentOps
    customer token "okx" [restingOrder] silentWorld cancelling_sent
  obtain rfl : cancelling = req :=
    Option.some.inj ((received_of_cancel _ _).symm.trans hreceived)
  have hlisted : Cancellable [{ symbol := "BTC-USDT", maxQty := "0.5", maxNotional := some "40000" }]
      restingOrder :=
    { listed := ⟨_, List.mem_singleton_self _, rfl⟩
      symbol := by decide
      orderId := by decide }
  have hprintable : PrintablePassphrase (env okxBlob) cancelling.action okxSecret := by
    rintro - triple htriple
    obtain rfl := Option.some.inj htriple
    decide
  exact (hsigned (.inr ⟨restingOrder, List.mem_singleton_self _, ⟨_, _, _, .inr rfl⟩, hlisted⟩)
    hadmitted hprintable).2

open Signer.Sample Sample in
/-- A passphrase that no header may hold is complete, and the listing that the job sends with it
is not signed. -/
theorem unwind_listing_not_signed :
    ⟨.roundTrip { head := listing }, none⟩ ∈ silentRun ∧ Lists token listing ∧
      (VsockRequest.mk listing none none).received = some listing ∧
      Admitted (env umlautBlob) {} listing (enclave ["okx"] .cancelOnly)
        (identity ["okx"] .cancelOnly) okxPolicy umlautSecret ∧
      ¬SignsFor (env umlautBlob) {} listing (enclave ["okx"] .cancelOnly) := by
  refine ⟨listing_sent, ⟨_, _, _, .inl rfl⟩, received_of_plain _, ?_, ?_⟩
  · exact
      { known := by decide +kernel
        rate := by decide +kernel
        loads := loads_of_isOk rfl (by decide +kernel)
        secret := ⟨_, rfl, by decide⟩ }
  · rintro ⟨hanswered, -⟩
    exact absurd hanswered (by decide +kernel)

end Signer.Gateway
