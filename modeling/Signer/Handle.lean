import Signer.Handlers.Binance
import Signer.Handlers.Hmac
import Signer.Handlers.Service

/-!
# The dispatcher

Every request of a tenant passes the version gate, is resolved to an identity once,
rate-limited, captured for its receipt, and gated by the mode of the tenant before its
handler runs. Management actions bypass these gates.
-/

namespace Signer

def bypassHandler (env : Env) (amb : Ambient) (req : SignRequest) :
    Option (Handler SignResponse) :=
  match req.action with
  | .ping => some (pure (.ok "pong"))
  | .registryChallenge => some (handleRegistryChallenge amb)
  | .registryRefresh => some (handleRegistryRefresh env req)
  | .provisionDataKey => some (handleProvisionDataKey env amb req)
  | .provisionAgentKey => some (handleProvisionAgentKey env amb req)
  | .attestation => some (handleAttestation env req)
  | _ => none

/-- Whether a request passes `tenant_mode_gate` in cancel-only mode. -/
def cancelOnlyAllows (req : SignRequest) : Bool :=
  let method := req.method.elim "" fun m => Text.toAsciiUppercase (Text.trim m)
  req.action = .verifyBlob ∨ req.action = .receiptHeartbeat ∨
    Text.endsWith req.action.name "_cancel" ∨
    (req.action = .signBinanceRequest ∧ req.op.map Text.trim ≠ some "order") ∨
    (req.action ∈ [.signKucoin, .signBinance, .signBybit, .signOkx, .signAsterdex] ∧
      (method = "GET" ∨ method = "DELETE"))

def tenantModeGate (identity : ResolvedIdentity) (req : SignRequest) : Except ErrCode Unit :=
  match identity.mode with
  | .active => .ok ()
  | .halted =>
    if req.action = .verifyBlob ∨ req.action = .receiptHeartbeat then .ok ()
    else .error .modeHalted
  | .cancelOnly => if cancelOnlyAllows req then .ok () else .error .modeCancelOnly

def dispatch (env : Env) (amb : Ambient) (req : SignRequest) (identity : ResolvedIdentity) :
    Handler SignResponse :=
  match req.action with
  | .sign => Proc.refuse (.err .badRequest)
  | .signKucoin => handleSignKucoin env amb req identity
  | .signBinance => handleSignBinance env amb req identity
  | .signBinanceRequest => handleSignBinanceRequest env amb req identity
  | .signBybit => handleSignBybit env amb req identity
  | .signOkx => handleSignOkx env amb req identity
  | .signHyperliquidMainOrder => handleSignHyperliquidMainOrder env amb req identity
  | .signHyperliquidMainCancel => handleSignHyperliquidMainCancel env amb req identity
  | .signHyperliquidTestnetOrder => handleSignHyperliquidTestnetOrder env amb req identity
  | .signHyperliquidTestnetCancel => handleSignHyperliquidTestnetCancel env amb req identity
  | .signAsterdex => handleSignAsterdex env amb req identity
  | .signData => handleSignData env amb req identity
  | .signX402Eip3009 => handleSignX402Eip3009 env amb req identity
  | .signPermit2PermitSingle => handleSignPermit2PermitSingle env amb req identity
  | .signBinanceOrder => handleSignBinanceOrder env amb req identity
  | .signBinanceCancel => handleSignBinanceCancel env amb req identity
  | .signOkxOrder => handleSignOkxOrder env amb req identity
  | .signOkxCancel => handleSignOkxCancel env amb req identity
  | .receiptHeartbeat => handleReceiptHeartbeat env req identity
  | .verifyBlob => handleVerifyBlob env amb req identity
  | _ => Proc.refuse (.err .badRequest)

structure Served where
  response : SignResponse
  answered : Bool
  trace : List Event

def serve (h : Handler SignResponse) (s : Enclave) : Served × Enclave :=
  match h.run s with
  | ⟨.ok resp, s', t⟩ => (⟨resp, true, t⟩, s')
  | ⟨.error resp, s', t⟩ => (⟨resp, false, t⟩, s')

def Served.refused (code : ErrCode) : Served := ⟨.err code, false, []⟩

def resolveIdentity (env : Env) (req : SignRequest) (s : Enclave) : Option ResolvedIdentity :=
  req.opaqueToken.bind (s.registry.resolve env)

def rateKey (identity : Option ResolvedIdentity) : String :=
  identity.elim "unauthenticated" ResolvedIdentity.customerId

def answer (env : Env) (amb : Ambient) (req : SignRequest) (identity : ResolvedIdentity)
    (s : Enclave) : Served × Enclave :=
  match tenantModeGate identity req with
  | .error code => (.refused code, s)
  | .ok () => serve (dispatch env amb req identity) s

/-- `receipt::attach` on a finished decision. -/
def attachReceipt (env : Env) (pre : ReceiptPre) (served : Served × Enclave) : Served × Enclave :=
  let attached := served.2.receipts.attach env pre served.1.response
  ({ served.1 with response := attached.1 }, { served.2 with receipts := attached.2 })

/-- `rate_limiter::check` for a request. -/
def checkRate (env : Env) (amb : Ambient) (req : SignRequest) (s : Enclave) : Bool × RateLimiter :=
  s.limiter.check env.rateCapacity env.ratePerSec amb.rateNow (rateKey (resolveIdentity env req s))

def handle (env : Env) (amb : Ambient) (req : SignRequest) (s : Enclave) : Served × Enclave :=
  match bypassHandler env amb req with
  | some h => serve h s
  | none =>
    if req.protoVersion < requiredProtoVersion then (.refused .badRequest, s)
    else
      let checked := checkRate env amb req s
      let s₁ := { s with limiter := checked.2 }
      if !checked.1 then (.refused .rateLimited, s₁)
      else
        match resolveIdentity env req s with
        | none => (.refused .badRequest, s₁)
        | some identity =>
          attachReceipt env (ReceiptPre.capture env identity req)
            (answer env amb req identity s₁)

/-! ### What an answered request did -/

section

variable {env : Env} {amb : Ambient} {req : SignRequest} {identity : ResolvedIdentity}
  {s s' : Enclave} {served : Served} {t : List Event}

theorem bypassHandler_of_receipted (h : isReceiptedAction req.action = true) :
    bypassHandler env amb req = none := by
  unfold bypassHandler
  split
  case h_7 => rfl
  all_goals
    rename_i haction
    rw [haction] at h
    exact absurd h (by decide)

theorem ne_signData_of_receipted {action : Action} (h : isReceiptedAction action = true) :
    action ≠ .signData := by
  rintro rfl
  exact absurd h (by decide)

variable {h : Handler SignResponse}

theorem serve_answered (hserved : serve h s = (served, s'))
    (hanswered : served.answered = true) : h.Returns s served.response s' served.trace := by
  unfold serve at hserved
  rcases hrun : h.run s with ⟨resp | resp, s₁, t₁⟩ <;> rw [hrun] at hserved
  · obtain ⟨rfl, -⟩ := Prod.mk.inj hserved
    simp at hanswered
  · cases hserved
    exact hrun

theorem answer_answered (hserved : answer env amb req identity s = (served, s'))
    (hanswered : served.answered = true) :
    tenantModeGate identity req = .ok () ∧
      (dispatch env amb req identity).Returns s served.response s' served.trace := by
  unfold answer at hserved
  split at hserved
  · obtain ⟨rfl, -⟩ := Prod.mk.inj hserved
    simp [Served.refused] at hanswered
  · rename_i hgate
    exact ⟨hgate, serve_answered hserved hanswered⟩

variable {I : Enclave → Prop}

theorem dispatch_keeps (hI : HandlerInvariant env I)
    (haction : req.action ≠ .signData) :
    (dispatch env amb req identity).Keeps I := by
  unfold dispatch
  split
  · exact Proc.keeps_refuse _
  · exact handleSignKucoin_keeps hI
  · exact handleSignBinance_keeps hI
  · exact handleSignBinanceRequest_keeps hI
  · exact handleSignBybit_keeps hI
  · exact handleSignOkx_keeps hI
  iterate 4 exact handleHyperliquid_keeps hI
  · exact handleSignAsterdex_keeps hI
  · rename_i hdata
    exact absurd hdata haction
  · exact handleSignX402Eip3009_keeps hI
  · exact handleSignPermit2PermitSingle_keeps hI
  · exact handleSignBinanceOrder_keeps hI
  · exact handleSignBinanceCancel_keeps hI
  · exact handleSignOkxOrder_keeps hI
  · exact handleSignOkxCancel_keeps hI
  · exact handleReceiptHeartbeat_keeps
  · exact handleVerifyBlob_keeps hI
  · exact Proc.keeps_refuse _

theorem serve_keeps (hkeeps : h.Keeps I)
    (hs : I s) :
    I (serve h s).2 := by
  have hkept : I (h.run s).state := hkeeps s hs
  unfold serve
  rcases hrun : h.run s with ⟨_ | _, s', t⟩ <;> simpa only [hrun] using hkept

theorem answer_keeps (hI : HandlerInvariant env I)
    (haction : req.action ≠ .signData)
    (hs : I s) : I (answer env amb req identity s).2 := by
  unfold answer
  split
  · exact hs
  · exact serve_keeps (dispatch_keeps hI haction) hs

theorem bypassHandler_silent
    (hbypass : bypassHandler env amb req = some h) :
    h.Silent := by
  unfold bypassHandler at hbypass
  split at hbypass <;> cases hbypass
  · exact Proc.silent_pure _
  · exact Proc.silent_bind (Proc.silent_update _) fun _ => Proc.silent_pure _
  · exact handleRegistryRefresh_silent
  · exact handleProvisionDataKey_silent
  · exact handleProvisionAgentKey_silent
  · exact handleAttestation_silent

theorem handle_answered (hserved : handle env amb req s = (served, s'))
    (hanswered : served.answered = true) (htrace : served.trace ≠ []) :
    ∃ identity limiter resp s₁, resolveIdentity env req s = some identity ∧
      tenantModeGate identity req = .ok () ∧
      (dispatch env amb req identity).Returns
        { s with limiter := limiter } resp s₁ served.trace := by
  unfold handle at hserved
  split at hserved
  · rename_i h hbypass
    exact absurd ((bypassHandler_silent hbypass).returns (serve_answered hserved hanswered)) htrace
  · split at hserved
    · obtain ⟨rfl, -⟩ := Prod.mk.inj hserved
      simp [Served.refused] at hanswered
    · dsimp only at hserved
      split at hserved
      · obtain ⟨rfl, -⟩ := Prod.mk.inj hserved
        simp [Served.refused] at hanswered
      · split at hserved
        · obtain ⟨rfl, -⟩ := Prod.mk.inj hserved
          simp [Served.refused] at hanswered
        · rename_i identity hidentity
          rcases hinner : answer env amb req identity
            { s with limiter := (checkRate env amb req s).2 } with ⟨inner, s₁⟩
          rw [hinner] at hserved
          obtain ⟨rfl, -⟩ := Prod.mk.inj hserved
          obtain ⟨hgate, hrun⟩ := answer_answered hinner hanswered
          exact ⟨identity, _, _, s₁, hidentity, hgate, hrun⟩

end

end Signer
