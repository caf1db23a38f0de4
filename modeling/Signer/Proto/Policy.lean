import Signer.Proto.Wire
import Signer.Text.Basic

/-!
# Policies and secrets

A secret blob decrypts to a policy and an exchange secret, or to a bare secret of
the older flat form. Every clause of a policy is optional, and an absent clause is
no constraint.
-/

namespace Signer

structure X402Policy where
  chainId : Option UInt64 := none
  tokenAddress : Option String := none
  maxValue : Option String := none
  allowedRecipients : Option (List String) := none
  deriving DecidableEq, Repr

structure Permit2Policy where
  chainId : Option UInt64 := none
  verifyingContract : Option String := none
  allowedTokens : Option (List String) := none
  allowedSpenders : Option (List String) := none
  maxAmount : Option String := none
  maxExpiration : Option UInt64 := none
  deriving DecidableEq, Repr

structure OrderAssetCap where
  symbol : String
  maxQty : String
  maxNotional : Option String := none
  deriving DecidableEq, Repr

structure HlOrderCap where
  asset : UInt64
  maxSize : String
  maxNotional : Option String := none
  deriving DecidableEq, Repr

structure Policy where
  allowedActions : Option (List String) := none
  allowedMethods : Option (List String) := none
  allowedPathPrefixes : Option (List String) := none
  deniedPathPrefixes : Option (List String) := none
  maxRequestsPerMinute : Option UInt32 := none
  label : Option String := none
  allowedAsterdexEndpoints : Option (List String) := none
  x402 : Option X402Policy := none
  permit2 : Option Permit2Policy := none
  orderCaps : Option (List OrderAssetCap) := none
  allowedVaults : Option (List String) := none
  hlOrderCaps : Option (List HlOrderCap) := none
  signerPubkey : Option String := none
  policySignature : Option String := none
  policyAuthoritySig : Option String := none
  intentPubkey : Option String := none
  deriving DecidableEq, Repr

namespace Policy

/-- A present clause as one member of the serialized policy; an absent clause is
left out (`skip_serializing_if`). -/
def member (name : String) (value : Option Json) : List (String × Json) :=
  (value.map fun v => (name, v)).toList

def strings (items : List String) : Json := .array (items.map .string)

def unsigned (n : UInt64) : Json := .number (.posInt n)

end Policy

def X402Policy.toJson (c : X402Policy) : Json :=
  .object <| Policy.member "chain_id" (c.chainId.map Policy.unsigned) ++
    Policy.member "token_address" (c.tokenAddress.map .string) ++
    Policy.member "max_value" (c.maxValue.map .string) ++
    Policy.member "allowed_recipients" (c.allowedRecipients.map Policy.strings)

def Permit2Policy.toJson (c : Permit2Policy) : Json :=
  .object <| Policy.member "chain_id" (c.chainId.map Policy.unsigned) ++
    Policy.member "verifying_contract" (c.verifyingContract.map .string) ++
    Policy.member "allowed_tokens" (c.allowedTokens.map Policy.strings) ++
    Policy.member "allowed_spenders" (c.allowedSpenders.map Policy.strings) ++
    Policy.member "max_amount" (c.maxAmount.map .string) ++
    Policy.member "max_expiration" (c.maxExpiration.map Policy.unsigned)

def OrderAssetCap.toJson (c : OrderAssetCap) : Json :=
  .object <| [("symbol", .string c.symbol), ("max_qty", .string c.maxQty)] ++
    Policy.member "max_notional" (c.maxNotional.map .string)

def HlOrderCap.toJson (c : HlOrderCap) : Json :=
  .object <| [("asset", Policy.unsigned c.asset), ("max_size", .string c.maxSize)] ++
    Policy.member "max_notional" (c.maxNotional.map .string)

def Policy.toJson (p : Policy) : Json :=
  .object <| member "allowed_actions" (p.allowedActions.map strings) ++
    member "allowed_methods" (p.allowedMethods.map strings) ++
    member "allowed_path_prefixes" (p.allowedPathPrefixes.map strings) ++
    member "denied_path_prefixes" (p.deniedPathPrefixes.map strings) ++
    member "max_requests_per_minute"
      (p.maxRequestsPerMinute.map fun n => unsigned n.toUInt64) ++
    member "label" (p.label.map .string) ++
    member "allowed_asterdex_endpoints" (p.allowedAsterdexEndpoints.map strings) ++
    member "x402" (p.x402.map X402Policy.toJson) ++
    member "permit2" (p.permit2.map Permit2Policy.toJson) ++
    member "order_caps" (p.orderCaps.map fun caps => .array (caps.map OrderAssetCap.toJson)) ++
    member "allowed_vaults" (p.allowedVaults.map strings) ++
    member "hl_order_caps" (p.hlOrderCaps.map fun caps => .array (caps.map HlOrderCap.toJson)) ++
    member "signer_pubkey" (p.signerPubkey.map .string) ++
    member "policy_signature" (p.policySignature.map .string) ++
    member "policy_authority_sig" (p.policyAuthoritySig.map .string) ++
    member "intent_pubkey" (p.intentPubkey.map .string)

/-- A secret under a policy, or a bare one. -/
inductive ParsedBlob where
  | withPolicy (policy : Policy) (secretJson : Json)
  | legacy (secretJson : Json)

def ParsedBlob.policy : ParsedBlob → Option Policy
  | withPolicy policy _ => some policy
  | legacy _ => none

def ParsedBlob.secretJson : ParsedBlob → Json
  | withPolicy _ secretJson => secretJson
  | legacy secretJson => secretJson

structure KeySecret where
  key : String
  secret : String
  deriving DecidableEq, Repr

structure PassphraseSecret where
  key : String
  secret : String
  passphrase : String
  deriving DecidableEq, Repr

structure HyperliquidSecret where
  exchange : String := ""
  privateKey : String
  walletAddress : String
  vaultAddress : Option String := none
  deriving DecidableEq, Repr

structure AsterdexSecret where
  exchange : String := ""
  privateKey : String
  signerAddress : String
  deriving DecidableEq, Repr

/-- `BinanceSecret::is_complete`, `BybitSecret::is_complete`. -/
def KeySecret.isComplete (s : KeySecret) : Bool := s.key ≠ "" ∧ s.secret ≠ ""

/-- `KucoinSecret::is_complete`, `OkxSecret::is_complete`. -/
def PassphraseSecret.isComplete (s : PassphraseSecret) : Bool :=
  s.key ≠ "" ∧ s.secret ≠ "" ∧ s.passphrase ≠ ""

/-- `0x` and hexadecimal digits, `len` bytes in all. -/
def isHexText (len : Nat) (s : String) : Bool :=
  s.utf8ByteSize = len ∧ Text.startsWith s "0x" ∧ (s.toList.drop 2).all Text.isAsciiHexdigit

def HyperliquidSecret.isComplete (s : HyperliquidSecret) : Bool :=
  isHexText 66 s.privateKey ∧ isHexText 42 s.walletAddress ∧
    s.vaultAddress.all fun v => v = "" ∨ isHexText 42 v

def AsterdexSecret.isComplete (s : AsterdexSecret) : Bool :=
  isHexText 66 s.privateKey ∧ isHexText 42 s.signerAddress

end Signer
