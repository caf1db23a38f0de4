import Signer.VsockServer

/-!
# What a signature rests on

Whatever is signed, in whatever state, was signed by a handler that had opened a blob of
the caller for the venue of the action, under a policy whose rules let the request pass.
-/

namespace Signer

/-! ### The cap check of a route -/

/-- An inline check of a handler, as the outcome of a gate. -/
def allowIf (c : Prop) [Decidable c] (code : ErrCode) : Except ErrCode Unit :=
  if c then .ok () else .error code

/-- A capped policy lets only the cancels and queries of `generic_capped_op_allowed` through the
routes that sign a free text. -/
def genericGate (venue method path query body : String) (policy : Option Policy) :
    Except ErrCode Unit :=
  allowIf ((policy.bind Policy.orderCaps).isSome →
    genericCappedOpAllowed venue method path query body)
    .policyDenied

/-- The three checks of `handle_sign_asterdex` over the policy, in their order. -/
def asterdexGate (env : Env) (path : Option String) (body : String) (policy : Option Policy) :
    Except ErrCode Unit :=
  allowIf (asterdexFloorDenies (policyRequired env) policy = false) .policyRequired >>= fun _ =>
  allowIf ((policy.bind Policy.allowedAsterdexEndpoints).all fun allowed =>
    asterdexEndpointAllowed allowed path) .policyDenied >>= fun _ =>
  enforceAsterdexSizeCap policy body

/-- What the handler of the request's route makes of a policy before it signs. `none` where the
route has no cap or a field that its check reads is missing. -/
def capGate (env : Env) (req : SignRequest) : Option (Option Policy → Except ErrCode Unit) :=
  match req.action with
  | .signKucoin | .signBybit =>
    some fun policy => allowIf (policy.bind Policy.orderCaps).isNone .policyDenied
  | .signBinance => do
    let method ← req.method
    let body ← req.body
    pure (genericGate "binance" method (req.path.getD "") (req.query.getD "") body)
  | .signOkx => do
    let method ← req.method
    let path ← req.path
    let body ← req.body
    pure (genericGate "okx" method (okxRequestPath path req.query) "" body)
  | .signBinanceRequest => do
    let op ← req.op
    let _ ← binanceRequestMethodPath op
    pure fun policy => allowIf (binanceRequestOrderDeniedForCapped op policy = false) .policyDenied
  | .signBinanceOrder | .signOkxOrder => do
    let order ← req.order
    pure fun policy => enforceOrderCap policy order.symbol (some order.qty) order.price
  | .signBinanceCancel | .signOkxCancel => do
    let cancel ← req.cancel
    pure fun policy => enforceOrderCap policy cancel.symbol none none
  | .signHyperliquidMainOrder | .signHyperliquidMainCancel
  | .signHyperliquidTestnetOrder | .signHyperliquidTestnetCancel => do
    let action ← req.hlAction
    let vault ← (requestVault req.vaultAddress).toOption
    pure fun policy => enforceHlCaps policy action vault
  | .signAsterdex => do
    let body ← req.body
    pure (asterdexGate env req.path body)
  | .signX402Eip3009 => do
    let x402 ← req.x402
    let transfer ← transferOf x402
    pure fun policy => enforceX402Cap policy transfer.chainId transfer.tokenAddress
      transfer.recipient transfer.value
  | .signPermit2PermitSingle => do
    let p2 ← req.permit2
    let amount ← permit2RequestShape p2
    let permit ← permitOf p2 amount
    pure fun policy => enforcePermit2Allowance policy permit
  | _ => none

/-- The request's route puts this policy before a cap check, and the policy passes it. -/
def PassesCap (env : Env) (req : SignRequest) (policy : Option Policy) : Prop :=
  ∃ gate, capGate env req = some gate ∧ gate policy = .ok ()

@[simp]
theorem allowIf_eq_ok {c : Prop} [Decidable c] {code : ErrCode} {u : Unit} :
    allowIf c code = .ok u ↔ c := by
  by_cases hc : c <;> simp [allowIf, hc]

@[simp]
theorem asterdexGate_eq_ok {env : Env} {path : Option String} {body : String}
    {policy : Option Policy} : asterdexGate env path body policy = .ok () ↔
      asterdexFloorDenies (policyRequired env) policy = false ∧
      (policy.bind Policy.allowedAsterdexEndpoints).all (fun allowed =>
        asterdexEndpointAllowed allowed path) = true ∧
      enforceAsterdexSizeCap policy body = .ok () := by
  simp [asterdexGate, bind_eq_ok]

/-! ### Signatures of a handler -/

section

variable {env : Env} {amb : Ambient} {req : SignRequest} {identity : ResolvedIdentity}
  {s s' : Enclave} {resp : SignResponse} {t : List Event} {message : SignedMessage}

/-- The request that the policy rules see: the route for named operations stamps method and path. -/
def SentAs (req sent : SignRequest) : Prop :=
  (req.action ≠ .signBinanceRequest ∧ sent = req) ∨
    (req.action = .signBinanceRequest ∧ ∃ op route, req.op = some op ∧
      binanceRequestMethodPath op = some route ∧ sent = stampRoute req route)

theorem SentAs.action_eq {sent : SignRequest} (h : SentAs req sent) : sent.action = req.action := by
  rcases h with ⟨-, rfl⟩ | ⟨-, op, route, -, -, rfl⟩ <;> rfl

theorem SentAs.loadSecretFor_eq {sent : SignRequest} {venue : String} (h : SentAs req sent) :
    loadSecretFor env amb sent identity venue = loadSecretFor env amb req identity venue := by
  rcases h with ⟨-, rfl⟩ | ⟨-, op, route, -, -, rfl⟩ <;> rfl

/-- A signature comes from a handler that opened a blob of the caller, and on every route but the
attested data the blob's policy has passed the cap check of the route. -/
theorem dispatch_signs (hrun : (dispatch env amb req identity).Returns s resp s' t)
    (hsigned : .signed message ∈ t) :
    ∃ sent blob venue intent s₁, SentAs req sent ∧ Opens env amb sent identity s blob venue s₁ ∧
      (req.action ≠ .signData → PassesCap env req blob.policy) ∧
      t = signTrace identity venue blob intent message := by
  have hopened : ∃ sent blob venue intent s₁ message', SentAs req sent ∧
      Opens env amb sent identity s blob venue s₁ ∧
      (req.action ≠ .signData → PassesCap env req blob.policy) ∧
      t = signTrace identity venue blob intent message' := by
    -- every route but `sign_binance_request` opens the blob for the request as it came
    have hsame : ∀ {action blob venue intent s₁ message'}, req.action = action →
        action ≠ .signBinanceRequest → Opens env amb req identity s blob venue s₁ →
        PassesCap env req blob.policy → t = signTrace identity venue blob intent message' →
        ∃ sent blob venue intent s₁ message', SentAs req sent ∧
          Opens env amb sent identity s blob venue s₁ ∧
          (req.action ≠ .signData → PassesCap env req blob.policy) ∧
          t = signTrace identity venue blob intent message' :=
      fun haction hne hopens hcap htrace => ⟨req, _, _, _, _, _, .inl ⟨haction ▸ hne, rfl⟩, hopens,
        fun _ => hcap, htrace⟩
    unfold dispatch at hrun
    split at hrun
    · exact absurd hrun Proc.returns_refuse
    · rename_i haction
      obtain ⟨_, _, _, _, _, _, _, -, -, -, -, -, hopens, hcap, -, -, rfl⟩ :=
        handleSignKucoin_signs.mp ⟨resp, hrun⟩
      exact hsame haction (by decide) hopens
        (by simpa [PassesCap, capGate, haction] using hcap) rfl
    · rename_i haction
      obtain ⟨_, _, _, _, _, _, hmethod, hbody, -, -, hopens, hcap, -, -, rfl⟩ :=
        handleSignBinance_signs.mp ⟨resp, hrun⟩
      exact hsame haction (by decide) hopens
        (by simpa [PassesCap, capGate, haction, hmethod, hbody, genericGate] using hcap) rfl
    · rename_i haction
      obtain ⟨op, _, route, _, _, _, hop, -, -, hroute, hopens, hcap, -, -, rfl⟩ :=
        handleSignBinanceRequest_signs hrun
      exact ⟨_, _, _, _, _, _, .inr ⟨haction, op, route, hop, hroute, rfl⟩, hopens,
        fun _ => by simpa [PassesCap, capGate, haction, hop, hroute] using hcap, rfl⟩
    · rename_i haction
      obtain ⟨_, _, _, _, _, _, -, -, -, -, hopens, hcap, -, -, rfl⟩ :=
        handleSignBybit_signs.mp ⟨resp, hrun⟩
      exact hsame haction (by decide) hopens
        (by simpa [PassesCap, capGate, haction] using hcap) rfl
    · rename_i haction
      obtain ⟨_, _, _, _, _, _, _, hmethod, hpath, hbody, -, -, hopens, hcap, -, rfl⟩ :=
        handleSignOkx_signs hrun
      exact hsame haction (by decide) hopens
        (by simpa [PassesCap, capGate, haction, hmethod, hpath, hbody, genericGate] using hcap) rfl
    iterate 4
      · rename_i haction
        obtain ⟨_, _, _, _, _, _, hhl, -, hvault, hopens, hcap, -, rfl⟩ :=
          handleHyperliquid_signs hrun
        exact hsame haction (by decide) hopens
          (by simpa [PassesCap, capGate, haction, hhl, hvault, Except.toOption] using hcap) rfl
    · rename_i haction
      obtain ⟨_, _, _, _, _, _, _, -, hbody, -, -, -, hopens, hfloor, hendpoint, hcap, -, -, -, -, -,
        rfl⟩ := handleSignAsterdex_signs.mp ⟨resp, hrun⟩
      exact hsame haction (by decide) hopens
        (by simpa [PassesCap, capGate, haction, hbody, hfloor, hendpoint] using hcap) rfl
    · rename_i haction
      obtain ⟨_, _, _, _, _, hopens, rfl⟩ := handleSignData_signs hrun
      exact ⟨req, _, _, _, _, _, .inl ⟨by simp [haction], rfl⟩, hopens,
        fun hne => absurd haction hne, rfl⟩
    · rename_i haction
      obtain ⟨_, _, _, _, _, hx402, htransfer, hopens, hcap, rfl⟩ := handleSignX402Eip3009_signs hrun
      exact hsame haction (by decide) hopens
        (by simpa [PassesCap, capGate, haction, hx402, htransfer] using hcap) rfl
    · rename_i haction
      obtain ⟨_, _, _, _, _, _, hp2, hamount, hpermit, hopens, hcap, rfl⟩ :=
        handleSignPermit2PermitSingle_signs hrun
      exact hsame haction (by decide) hopens
        (by simpa [PassesCap, capGate, haction, hp2, hamount, hpermit] using hcap) rfl
    · rename_i haction
      obtain ⟨_, _, _, _, _, _, _, _, horder, -, hopens, hcap, -, -, -, rfl⟩ :=
        handleSignBinanceOrder_signs hrun
      exact hsame haction (by decide) hopens
        (by simpa [PassesCap, capGate, haction, horder] using hcap) rfl
    · rename_i haction
      obtain ⟨_, _, _, _, _, _, _, _, hcancel, -, hopens, hcap, -, -, -, rfl⟩ :=
        handleSignBinanceCancel_signs hrun
      exact hsame haction (by decide) hopens
        (by simpa [PassesCap, capGate, haction, hcancel] using hcap) rfl
    · rename_i haction
      obtain ⟨_, _, _, _, _, _, _, _, horder, -, hopens, hcap, -, -, -, rfl⟩ :=
        handleSignOkxOrder_signs hrun
      exact hsame haction (by decide) hopens
        (by simpa [PassesCap, capGate, haction, horder] using hcap) rfl
    · rename_i haction
      obtain ⟨_, _, _, _, _, _, _, _, hcancel, -, hopens, hcap, -, -, -, rfl⟩ :=
        handleSignOkxCancel_signs hrun
      exact hsame haction (by decide) hopens
        (by simpa [PassesCap, capGate, haction, hcancel] using hcap) rfl
    · simp [handleReceiptHeartbeat_silent.returns hrun] at hsigned
    · simp [handleVerifyBlob_silent.returns hrun] at hsigned
    · exact absurd hrun Proc.returns_refuse
  obtain ⟨sent, blob, venue, intent, s₁, message', hsent, hopens, hcap, rfl⟩ := hopened
  obtain rfl := signed_mem_signTrace.mp hsigned
  exact ⟨sent, blob, venue, intent, s₁, hsent, hopens, hcap, rfl⟩

theorem rulesPass_of_signed {p : Policy}
    (hrun : (dispatch env amb req identity).Returns s resp s' t)
    (hsigned : .signed message ∈ t) (hpolicy : some p ∈ acceptedPolicies t) :
    ∃ sent, SentAs req sent ∧ RulesPass p sent := by
  obtain ⟨sent, blob, venue, intent, s₁, hsent, hopens, -, rfl⟩ := dispatch_signs hrun hsigned
  exact ⟨sent, hsent, hopens.rulesPass (by simpa [eq_comm] using hpolicy)⟩

end

theorem signed_of_serverSteps {env : Env} {s : Enclave} {conns : List Connection}
    {step : ServerStep} {req : SignRequest} {served : Served} {message : SignedMessage}
    (hstep : step ∈ serverSteps env s conns) (hserved : step.output = .served req served)
    (hanswered : served.answered = true) (hsigned : .signed message ∈ served.trace) :
    ∃ frame identity limiter resp s₁, frame.length ≤ maxMessageBytes ∧
      env.requestFromSlice frame = some req ∧
      resolveIdentity env req step.before = some identity ∧
      (dispatch env step.input.amb req identity).Returns
        { step.before with limiter := limiter } resp
        s₁ served.trace := by
  have hmachine := (Run.mem_steps hstep).2
  rw [hserved] at hmachine
  obtain ⟨frame, hlen, hreq, hhandle⟩ := handleConnection_served hmachine
  obtain ⟨identity, limiter, resp, s₁, hidentity, -, hrun⟩ :=
    handle_answered hhandle hanswered (List.ne_nil_of_mem hsigned)
  exact ⟨frame, identity, limiter, resp, s₁, hlen, hreq, hidentity, hrun⟩

end Signer
