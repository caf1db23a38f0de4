import Signer.IntentReplay
import Signer.Sample
import Signer.Signing

/-!
# The gates of a request

Every sign handler checks the fields of its request, loads the blob and enforces the policy, then
puts the policy before the caps of the venue. The structured routes ask for the agent's intent next.
-/

namespace Signer

/-- The intent check of a structured route, over a policy. -/
def intentGate (env : Env) (identity : ResolvedIdentity) (req : SignRequest) :
    Option (Option Policy → Handler Unit) :=
  match req.action with
  | .signBinanceOrder => do
    let order ← req.order
    let ts ← req.timestampMs
    pure fun policy =>
      enforceAgentIntentOrder env policy identity "binance" .signBinanceOrder ts order req
  | .signOkxOrder => do
    let order ← req.order
    let ts ← req.timestampMs
    pure fun policy => enforceAgentIntentOrder env policy identity "okx" .signOkxOrder ts order req
  | .signBinanceCancel => do
    let cancel ← req.cancel
    let ts ← req.timestampMs
    pure fun policy =>
      enforceAgentIntentCancel env policy identity "binance" .signBinanceCancel ts cancel req
  | .signOkxCancel => do
    let cancel ← req.cancel
    let ts ← req.timestampMs
    pure fun policy => enforceAgentIntentCancel env policy identity "okx" .signOkxCancel ts cancel req
  | _ => none

/-! ### A handler and its gate -/

/-- The handler checks pure conditions, opens the blob, and puts its policy before `gate`. -/
def GatedBy (env : Env) (amb : Ambient) (identity : ResolvedIdentity) (sent : SignRequest)
    (gate : Option Policy → Except ErrCode Unit) (handler : Handler SignResponse) : Prop :=
  ∃ (check : Except SignResponse Unit) (rest : Opened → Handler SignResponse),
    handler = Proc.ofExcept check >>= fun _ => openBlob env amb sent identity >>= fun blob =>
      underPolicy blob.policyHash (gate blob.policy) >>= fun _ => rest blob

section

variable {env : Env} {amb : Ambient} {identity : ResolvedIdentity} {sent : SignRequest}
  {gate : Option Policy → Except ErrCode Unit}

theorem gatedBy_refuse (e : SignResponse) :
    GatedBy env amb identity sent gate (Proc.refuse e) :=
  ⟨.error e, fun _ => Proc.refuse e, rfl⟩

theorem gatedBy_ensure_bind {c : Prop} [Decidable c] {e : SignResponse}
    {f : Unit → Handler SignResponse} (hf : c → GatedBy env amb identity sent gate (f ())) :
    GatedBy env amb identity sent gate (Proc.ensure c e >>= f) := by
  by_cases hc : c
  · rw [Proc.ensure, if_pos hc]
    exact hf hc
  · rw [Proc.ensure, if_neg hc]
    exact gatedBy_refuse e

theorem gatedBy_openBlob_bind {f : Opened → Handler SignResponse}
    (hf : ∀ blob, ∃ rest, f blob =
      underPolicy blob.policyHash (gate blob.policy) >>= fun _ : Unit => rest) :
    GatedBy env amb identity sent gate (openBlob env amb sent identity >>= f) := by
  choose rest hrest using hf
  exact ⟨.ok (), rest, congrArg (openBlob env amb sent identity >>= ·) (funext hrest)⟩

theorem handleSignX402Eip3009_gated {req : SignRequest} {x402 : X402Request}
    {transfer : TransferAuthorization} (hx402 : req.x402 = some x402)
    (htransfer : transferOf x402 = some transfer) :
    GatedBy env amb identity req
      (fun policy => enforceX402Cap policy transfer.chainId transfer.tokenAddress transfer.recipient
        transfer.value) (handleSignX402Eip3009 env amb req identity) := by
  simp only [handleSignX402Eip3009, hx402, htransfer, Proc.ofOption_some_bind]
  exact gatedBy_ensure_bind fun _ => gatedBy_openBlob_bind fun _ => ⟨_, rfl⟩

theorem gate_eq_intentGate {call : IntentCall} {x : GateInput}
    (haction : call.req.action = call.route.action) (hitem : call.route.item call.req = some x.item)
    (hts : call.req.timestampMs = some x.ts) :
    ∃ g, intentGate env call.identity call.req = some g ∧
      call.gate env x = (g x.blob.policy).mapError (·.withPolicyHash x.blob.policyHash) := by
  obtain ⟨route, amb, req, identity⟩ := call
  simp only at hts
  cases route <;> simp only [StructuredRoute.action] at haction <;>
    simp only [StructuredRoute.item, Option.map_eq_some_iff] at hitem <;>
    obtain ⟨item, hreq, hitem⟩ := hitem <;>
    simp only [intentGate, haction, hreq, hts, Option.bind_eq_bind, Option.bind_some,
      Option.pure_def, Option.some.injEq, exists_eq_left', IntentCall.gate, ← hitem] <;>
    rfl

end

end Signer
