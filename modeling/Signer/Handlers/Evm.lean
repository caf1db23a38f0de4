import Signer.AsterdexBody
import Signer.Handlers.Common
import Signer.Payments

/-!
# The handlers that sign with a secp256k1 key

Hyperliquid actions, Asterdex bodies, EIP-3009 payments and Permit2 allowances. Each
checks that the key in the blob belongs to the address sealed next to it.
-/

namespace Signer

open Proc

variable {privateKey address : String} {policyHash : Option String}

def releaseSignature (message : SignedMessage) (resp : SignResponse) : Handler SignResponse := do
  Proc.perform (.signed message)
  pure resp

def ownKey (env : Env) (privateKey address : String) (policyHash : Option String) :
    Handler (Bytes × Bytes) := do
  let pk ← Proc.ofOption (parseEvmPrivateKey privateKey) (denyUnder policyHash .badRequest)
  let derived ← Proc.ofOption (deriveAddress env pk) (denyUnder policyHash .internalError)
  let claimed ← Proc.ofOption (parseEvmAddress address) (denyUnder policyHash .badRequest)
  Proc.ensure (derived = claimed) (denyUnder policyHash .badRequest)
  pure (pk, derived)

def requestVault (vaultAddress : Option String) : Except SignResponse (Option Bytes) :=
  match vaultAddress.filter fun v => v ≠ "" with
  | none => .ok none
  | some v =>
    match parseEvmAddress v with
    | some addr => .ok (some addr)
    | none => .error (.err .badRequest)

structure HlLoaded where
  key : Bytes
  action : Json
  nonce : UInt64
  vault : Option Bytes
  policyHash : Option String

/-- `load_hyperliquid_request`, with the key parsed. -/
def loadHyperliquidRequest (env : Env) (amb : Ambient) (req : SignRequest)
    (identity : ResolvedIdentity) : Handler HlLoaded := do
  let action ← Proc.ofOption req.hlAction (.err .badRequest)
  let nonce ← Proc.ofOption req.nonce (.err .badRequest)
  let vault ← Proc.ofExcept (requestVault req.vaultAddress)
  let blob ← openBlob env amb req identity
  underPolicy blob.policyHash (enforceHlCaps blob.policy action vault)
  let secret ← completeSecret (env.hyperliquidSecretFromValue blob.secretJson)
    HyperliquidSecret.isComplete blob.policyHash
  let key ← ownKey env secret.privateKey secret.walletAddress blob.policyHash
  pure { key := key.1, action, nonce, vault, policyHash := blob.policyHash }

/-- `sign_hyperliquid_mainnet` and `sign_hyperliquid_testnet`, which differ in the source. -/
def signHyperliquidAs (source : String) (env : Env) (amb : Ambient) (req : SignRequest)
    (identity : ResolvedIdentity) : Handler SignResponse := do
  let h ← loadHyperliquidRequest env amb req identity
  let sig ← Proc.ofOption (signHyperliquid env h.key h.action h.nonce h.vault source)
    (denyUnder h.policyHash .internalError)
  releaseSignature (.hyperliquid h.key h.action h.nonce h.vault source)
    ((SignResponse.okHlSignature sig).withPolicyHash h.policyHash)

def handleHyperliquid (validate : Json → Bool) (source : String) (env : Env) (amb : Ambient)
    (req : SignRequest) (identity : ResolvedIdentity) : Handler SignResponse := do
  let action ← Proc.ofOption req.hlAction (.err .badRequest)
  Proc.ensure (validate action) (.err .badRequest)
  signHyperliquidAs source env amb req identity

def handleSignHyperliquidMainOrder := handleHyperliquid validateOrderAction "a"

def handleSignHyperliquidMainCancel := handleHyperliquid validateCancelAction "a"

def handleSignHyperliquidTestnetOrder := handleHyperliquid validateOrderAction "b"

def handleSignHyperliquidTestnetCancel := handleHyperliquid validateCancelAction "b"

def handleSignAsterdex (env : Env) (amb : Ambient) (req : SignRequest)
    (identity : ResolvedIdentity) : Handler SignResponse := do
  let method ← Proc.ofOption req.method (.err .badRequest)
  let body ← Proc.ofOption req.body (.err .badRequest)
  Proc.ensure (method ∈ allowedMethods) (.err .badRequest)
  Proc.ensure (body ≠ "") (.err .badRequest)
  Proc.ensure (body.utf8ByteSize ≤ asterdexMaxBodyLen) (.err .badRequest)
  let blob ← openBlob env amb req identity
  Proc.ensure (asterdexFloorDenies (policyRequired env) blob.policy = false)
    (denyUnder blob.policyHash .policyRequired)
  Proc.ensure ((blob.policy.bind Policy.allowedAsterdexEndpoints).all fun allowed =>
      asterdexEndpointAllowed allowed req.path)
    (denyUnder blob.policyHash .policyDenied)
  underPolicy blob.policyHash (enforceAsterdexSizeCap blob.policy body)
  let secret ← completeSecret (env.asterdexSecretFromValue blob.secretJson)
    AsterdexSecret.isComplete blob.policyHash
  let key ← ownKey env secret.privateKey secret.signerAddress blob.policyHash
  Proc.ensure (validateAsterdexBody body key.2) (denyUnder blob.policyHash .badRequest)
  let signature ← Proc.ofOption (signAsterdex env key.1 body)
    (denyUnder blob.policyHash .internalError)
  releaseSignature (.asterdex key.1 body)
    ((SignResponse.okHeaders [("signature", signature),
      ("signer", "0x" ++ Text.hexEncode key.2)]).withPolicyHash blob.policyHash)

def transferOf (x : X402Request) : Option TransferAuthorization := do
  let tokenAddress ← parseEvmAddress x.tokenAddress
  let sender ← parseEvmAddress x.sender
  let recipient ← parseEvmAddress x.recipient
  let value ← parseU256Decimal x.value
  let nonce ← parseBytes32Hex x.nonce
  pure { tokenName := x.tokenName, tokenVersion := x.tokenVersion, chainId := x.chainId,
         tokenAddress, sender, recipient, value, validAfter := x.validAfter,
         validBefore := x.validBefore, nonce }

def handleSignX402Eip3009 (env : Env) (amb : Ambient) (req : SignRequest)
    (identity : ResolvedIdentity) : Handler SignResponse := do
  let x402 ← Proc.ofOption req.x402 (.err .badRequest)
  Proc.ensure (x402.validAfter < x402.validBefore) (.err .badRequest)
  let blob ← openBlob env amb req identity
  let transfer ← Proc.ofOption (transferOf x402) (denyUnder blob.policyHash .badRequest)
  underPolicy blob.policyHash (enforceX402Cap blob.policy transfer.chainId transfer.tokenAddress
    transfer.recipient transfer.value)
  let secret ← completeSecret (env.asterdexSecretFromValue blob.secretJson)
    AsterdexSecret.isComplete blob.policyHash
  let key ← ownKey env secret.privateKey secret.signerAddress blob.policyHash
  Proc.ensure (key.2 = transfer.sender) (denyUnder blob.policyHash .badRequest)
  let signature ← Proc.ofOption (signX402Eip3009 env key.1 transfer)
    (denyUnder blob.policyHash .internalError)
  releaseSignature (.eip3009 key.1 transfer)
    ((SignResponse.okHeaders [("from", "0x" ++ Text.hexEncode key.2),
      ("signature", signature)]).withPolicyHash blob.policyHash)

def permitOf (p2 : Permit2Request) (amount : Nat) : Option PermitSingle := do
  let verifyingContract ← parseEvmAddress p2.verifyingContract
  let token ← parseEvmAddress p2.token
  let spender ← parseEvmAddress p2.spender
  let sigDeadline ← parseU256Decimal p2.sigDeadline
  pure { chainId := p2.chainId, verifyingContract, token, amount, expiration := p2.expiration,
         nonce := p2.nonce, spender, sigDeadline }

def handleSignPermit2PermitSingle (env : Env) (amb : Ambient) (req : SignRequest)
    (identity : ResolvedIdentity) : Handler SignResponse := do
  let p2 ← Proc.ofOption req.permit2 (.err .badRequest)
  let amount ← Proc.ofOption (permit2RequestShape p2) (.err .badRequest)
  let blob ← openBlob env amb req identity
  let permit ← Proc.ofOption (permitOf p2 amount) (denyUnder blob.policyHash .badRequest)
  underPolicy blob.policyHash (enforcePermit2Allowance blob.policy permit)
  let secret ← completeSecret (env.asterdexSecretFromValue blob.secretJson)
    AsterdexSecret.isComplete blob.policyHash
  let key ← ownKey env secret.privateKey secret.signerAddress blob.policyHash
  let signature ← Proc.ofOption (signPermit2PermitSingle env key.1 permit)
    (denyUnder blob.policyHash .internalError)
  releaseSignature (.permit2 key.1 permit)
    ((SignResponse.okHeaders [("owner", "0x" ++ Text.hexEncode key.2),
      ("signature", signature)]).withPolicyHash blob.policyHash)

/-! ### What the handlers change -/

section

variable {env : Env} {amb : Ambient} {req : SignRequest} {identity : ResolvedIdentity}
  {I : Enclave → Prop}

@[simp]
theorem keeps_releaseSignature {message : SignedMessage} {resp : SignResponse} :
    (releaseSignature message resp).Keeps I := by
  simp [releaseSignature]

@[simp]
theorem keeps_ownKey :
    (ownKey env privateKey address policyHash).Keeps I := by
  simp [ownKey]

theorem keeps_ownKey_bind {β : Type} {f : Bytes × Bytes → Handler β} (hf : ∀ key, (f key).Keeps I) :
    (ownKey env privateKey address policyHash >>= f).Keeps I :=
  keeps_bind keeps_ownKey hf

theorem handleHyperliquid_keeps (hI : HandlerInvariant env I) {validate : Json → Bool}
    {source : String} :
    (handleHyperliquid validate source env amb req identity).Keeps I := by
  have hload : (loadHyperliquidRequest env amb req identity).Keeps I := by
    simp [loadHyperliquidRequest, keeps_openBlob_bind hI.toLoadInvariant, keeps_ownKey_bind]
  simp only [handleHyperliquid, keeps_ofOption_bind, keeps_ensure_bind]
  intro action _ _
  refine keeps_bind hload fun h => ?_
  simp

theorem handleSignAsterdex_keeps (hI : HandlerInvariant env I) :
    (handleSignAsterdex env amb req identity).Keeps I := by
  simp [handleSignAsterdex, keeps_openBlob_bind hI.toLoadInvariant, keeps_ownKey_bind]

theorem handleSignX402Eip3009_keeps (hI : HandlerInvariant env I) :
    (handleSignX402Eip3009 env amb req identity).Keeps I := by
  simp [handleSignX402Eip3009, keeps_openBlob_bind hI.toLoadInvariant, keeps_ownKey_bind]

theorem handleSignPermit2PermitSingle_keeps (hI : HandlerInvariant env I) :
    (handleSignPermit2PermitSingle env amb req identity).Keeps I := by
  simp [handleSignPermit2PermitSingle, keeps_openBlob_bind hI.toLoadInvariant, keeps_ownKey_bind]

end

/-! ### When the handlers sign -/

section

variable {env : Env} {amb : Ambient} {req : SignRequest} {identity : ResolvedIdentity}
  {s s' : Enclave} {resp : SignResponse} {t : List Event} {β : Type}

@[simp]
theorem returns_releaseSignature {message : SignedMessage} {r : SignResponse} :
    (releaseSignature message r).Returns s resp s' t ↔
      resp = r ∧ s' = s ∧ t = [.signed message] := by
  simp [releaseSignature, and_assoc]

structure OwnKey (env : Env) (privateKey address : String) (key : Bytes × Bytes) : Prop where
  parsed : parseEvmPrivateKey privateKey = some key.1
  derived : deriveAddress env key.1 = some key.2
  claimed : parseEvmAddress address = some key.2

@[simp]
theorem returns_ownKey_bind {f : Bytes × Bytes → Handler β} {b : β} :
    (ownKey env privateKey address policyHash >>= f).Returns s b s' t ↔
      ∃ key, OwnKey env privateKey address key ∧ (f key).Returns s b s' t := by
  rw [returns_bind]
  simp only [ownKey, returns_ofOption_bind, returns_ensure_bind, returns_pure]
  constructor
  · rintro ⟨_, _, _, t₂, ⟨pk, hpk, derived, hderived, claimed, hclaimed, rfl, rfl, rfl, rfl⟩, hf,
      rfl⟩
    exact ⟨_, ⟨hpk, hderived, hclaimed⟩, hf⟩
  · rintro ⟨key, ⟨hpk, hderived, hclaimed⟩, hf⟩
    exact ⟨key, s, [], t, ⟨_, hpk, _, hderived, _, hclaimed, rfl, rfl, rfl, rfl⟩, hf, rfl⟩

theorem loadHyperliquidRequest_returns {loaded : HlLoaded} :
    (loadHyperliquidRequest env amb req identity).Returns s loaded s' t ↔
      ∃ action nonce vault blob venue secret key, req.hlAction = some action ∧
        req.nonce = some nonce ∧ requestVault req.vaultAddress = .ok vault ∧
        Opens env amb req identity s blob venue s' ∧
        enforceHlCaps blob.policy action vault = .ok () ∧
        env.hyperliquidSecretFromValue blob.secretJson = some secret ∧ secret.isComplete = true ∧
        OwnKey env secret.privateKey secret.walletAddress key ∧
        loaded = { key := key.1, action, nonce, vault, policyHash := blob.policyHash } ∧
        t = [.blobAccepted identity.customerId venue blob.policy blob.secretJson] := by
  simp only [loadHyperliquidRequest, returns_ofOption_bind, returns_ofExcept_bind,
    returns_openBlob_bind, returns_underPolicy_bind, returns_completeSecret_bind,
    returns_ownKey_bind, returns_pure]
  constructor
  · rintro ⟨action, haction, nonce, hnonce, vault, hvault, blob, venue, _, _, hopens,
      ⟨_, hcaps, secret, ⟨hsecret, hcomplete⟩, key, hkey, hloaded, rfl, rfl⟩, rfl⟩
    exact ⟨action, nonce, vault, blob, venue, secret, key, haction, hnonce, hvault, hopens, hcaps,
      hsecret, hcomplete, hkey, hloaded, rfl⟩
  · rintro ⟨action, nonce, vault, blob, venue, secret, key, haction, hnonce, hvault, hopens, hcaps,
      hsecret, hcomplete, hkey, hloaded, rfl⟩
    exact ⟨action, haction, nonce, hnonce, vault, hvault, blob, venue, s', [], hopens,
      ⟨(), hcaps, secret, ⟨hsecret, hcomplete⟩, key, hkey, hloaded, rfl, rfl⟩, rfl⟩

theorem handleHyperliquid_signs {validate : Json → Bool} {source : String}
    (h : (handleHyperliquid validate source env amb req identity).Returns s resp s' t) :
    ∃ action nonce vault blob venue key, req.hlAction = some action ∧ validate action = true ∧
      requestVault req.vaultAddress = .ok vault ∧
      Opens env amb req identity s blob venue s' ∧ enforceHlCaps blob.policy action vault = .ok () ∧
      (signHyperliquid env key action nonce vault source).isSome = true ∧
      t = signTrace identity venue blob none (.hyperliquid key action nonce vault source) := by
  simp only [handleHyperliquid, signHyperliquidAs, returns_ofOption_bind,
    returns_ensure_bind] at h
  obtain ⟨action, haction, hvalid, h⟩ := h
  obtain ⟨loaded, s₁, t₁, t₂, hload, hsign, rfl⟩ := returns_bind.mp h
  obtain ⟨action', nonce, vault, blob, venue, _, key, haction', -, hvault, hopens, hcaps, -, -, -,
    rfl, rfl⟩ := loadHyperliquidRequest_returns.mp hload
  simp only [returns_ofOption_bind, returns_releaseSignature] at hsign
  obtain ⟨sig, hsig, -, rfl, rfl⟩ := hsign
  obtain rfl : action' = action := Option.mem_unique haction' haction
  exact ⟨action', nonce, vault, blob, venue, key.1, haction, hvalid, hvault, hopens, hcaps,
    Option.isSome_of_eq_some hsig, rfl⟩

theorem handleSignAsterdex_signs :
    (∃ resp, (handleSignAsterdex env amb req identity).Returns s resp s' t) ↔
      ∃ method body blob venue secret key signature, req.method = some method ∧
        req.body = some body ∧ method ∈ allowedMethods ∧ body ≠ "" ∧
        body.utf8ByteSize ≤ asterdexMaxBodyLen ∧ Opens env amb req identity s blob venue s' ∧
        asterdexFloorDenies (policyRequired env) blob.policy = false ∧
        (blob.policy.bind Policy.allowedAsterdexEndpoints).all (fun allowed =>
          asterdexEndpointAllowed allowed req.path) = true ∧
        enforceAsterdexSizeCap blob.policy body = .ok () ∧
        env.asterdexSecretFromValue blob.secretJson = some secret ∧ secret.isComplete = true ∧
        OwnKey env secret.privateKey secret.signerAddress key ∧
        validateAsterdexBody body key.2 = true ∧ signAsterdex env key.1 body = some signature ∧
        t = signTrace identity venue blob none (.asterdex key.1 body) := by
  simp only [handleSignAsterdex, returns_ofOption_bind, returns_ensure_bind,
    returns_openBlob_bind, returns_underPolicy_bind, returns_completeSecret_bind,
    returns_ownKey_bind, returns_releaseSignature]
  constructor
  · rintro ⟨resp, method, hmethod, body, hbody, hallowed, hne, hlen, blob, venue, s₁, t₁, hopens,
      ⟨hfloor, hendpoint, _, hcap, secret, ⟨hsecret, hcomplete⟩, key, hkey, hvalid, signature,
        hsig, -, rfl, rfl⟩, rfl⟩
    exact ⟨method, body, blob, venue, secret, key, signature, hmethod, hbody, hallowed, hne, hlen,
      hopens, hfloor, hendpoint, hcap, hsecret, hcomplete, hkey, hvalid, hsig, rfl⟩
  · rintro ⟨method, body, blob, venue, secret, key, signature, hmethod, hbody, hallowed, hne, hlen,
      hopens, hfloor, hendpoint, hcap, hsecret, hcomplete, hkey, hvalid, hsig, rfl⟩
    exact ⟨_, method, hmethod, body, hbody, hallowed, hne, hlen, blob, venue, s', _, hopens,
      ⟨hfloor, hendpoint, (), hcap, secret, ⟨hsecret, hcomplete⟩, key, hkey, hvalid, signature,
        hsig, rfl, rfl, rfl⟩, rfl⟩

theorem handleSignX402Eip3009_signs
    (h : (handleSignX402Eip3009 env amb req identity).Returns s resp s' t) :
    ∃ x402 blob venue transfer key, req.x402 = some x402 ∧ transferOf x402 = some transfer ∧
      Opens env amb req identity s blob venue s' ∧
      enforceX402Cap blob.policy transfer.chainId transfer.tokenAddress transfer.recipient
        transfer.value = .ok () ∧
      t = signTrace identity venue blob none (.eip3009 key transfer) := by
  simp only [handleSignX402Eip3009, returns_ofOption_bind, returns_ensure_bind,
    returns_openBlob_bind, returns_underPolicy_bind, returns_completeSecret_bind,
    returns_ownKey_bind, returns_releaseSignature] at h
  obtain ⟨x402, hx402, -, blob, venue, s₁, t₁, hopens, ⟨transfer, htransfer, _, hcap, secret, -,
    key, -, -, signature, -, -, rfl, rfl⟩, rfl⟩ := h
  exact ⟨x402, blob, venue, transfer, key.1, hx402, htransfer, hopens, hcap, rfl⟩

theorem handleSignPermit2PermitSingle_signs
    (h : (handleSignPermit2PermitSingle env amb req identity).Returns s resp s' t) :
    ∃ p2 amount permit blob venue key, req.permit2 = some p2 ∧
      permit2RequestShape p2 = some amount ∧ permitOf p2 amount = some permit ∧
      Opens env amb req identity s blob venue s' ∧
      enforcePermit2Allowance blob.policy permit = .ok () ∧
      t = signTrace identity venue blob none (.permit2 key permit) := by
  simp only [handleSignPermit2PermitSingle, returns_ofOption_bind, returns_openBlob_bind,
    returns_underPolicy_bind, returns_completeSecret_bind, returns_ownKey_bind,
    returns_releaseSignature] at h
  obtain ⟨p2, hp2, amount, hamount, blob, venue, s₁, t₁, hopens, ⟨permit, hpermit, _, hcap, secret,
    -, key, -, signature, -, -, rfl, rfl⟩, rfl⟩ := h
  exact ⟨p2, amount, permit, blob, venue, key.1, hp2, hamount, hpermit, hopens, hcap, rfl⟩

end

end Signer
