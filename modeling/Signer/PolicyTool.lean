import Signer.PolicyReader
import Signer.RegistryTool

/-!
# Signing policies off-box

`policy-cli` declares the schema of a policy once more, and denies unknown fields in all of it. Its
`policy-sign` parses a policy, checks that the parsed policy is what the text says, runs the checks
of the wrap path, and signs the policy for one customer and venue. Warnings are not part of the
model.
-/

namespace Signer

open Text

namespace PolicyCli

open Serde
open Signer.Policy (strings unsigned)

/-! ### The schema -/

structure OrderAssetCap where
  symbol : String
  maxQty : String
  maxNotional : Option String := none
  deriving DecidableEq, Repr

structure HlOrderCap where
  asset : UInt64
  maxSize : String
  maxNotional : Option String := none
  deriving DecidableEq, Repr

structure X402Policy where
  chainId : Option UInt64 := none
  tokenAddress : Option String := none
  maxValue : Option String := none
  allowedRecipients : Option (List String) := none
  deriving DecidableEq, Repr

structure Permit2Policy where
  chainId : Option UInt64 := none
  verifyingContract : Option String := none
  allowedTokens : Option (List String) := none
  allowedSpenders : Option (List String) := none
  maxAmount : Option String := none
  maxExpiration : Option UInt64 := none
  deriving DecidableEq, Repr

structure Policy where
  allowedActions : Option (List String) := none
  allowedMethods : Option (List String) := none
  allowedPathPrefixes : Option (List String) := none
  deniedPathPrefixes : Option (List String) := none
  maxRequestsPerMinute : Option UInt32 := none
  label : Option String := none
  allowedAsterdexEndpoints : Option (List String) := none
  x402 : Option X402Policy := none
  permit2 : Option Permit2Policy := none
  orderCaps : Option (List OrderAssetCap) := none
  allowedVaults : Option (List String) := none
  hlOrderCaps : Option (List HlOrderCap) := none
  signerPubkey : Option String := none
  policySignature : Option String := none
  policyAuthoritySig : Option String := none
  intentPubkey : Option String := none
  deriving DecidableEq, Repr

/-! ### Serializers

The present fields in declaration order (`skip_serializing_if`). -/

def OrderAssetCap.toJson (c : OrderAssetCap) : Json :=
  .object <| presentMembers
    [("symbol", some (.string c.symbol)), ("max_qty", some (.string c.maxQty)),
      ("max_notional", c.maxNotional.map .string)]

def HlOrderCap.toJson (c : HlOrderCap) : Json :=
  .object <| presentMembers
    [("asset", some (unsigned c.asset)), ("max_size", some (.string c.maxSize)),
      ("max_notional", c.maxNotional.map .string)]

def X402Policy.toJson (c : X402Policy) : Json :=
  .object <| presentMembers
    [("chain_id", c.chainId.map unsigned), ("token_address", c.tokenAddress.map .string),
      ("max_value", c.maxValue.map .string),
      ("allowed_recipients", c.allowedRecipients.map strings)]

def Permit2Policy.toJson (c : Permit2Policy) : Json :=
  .object <| presentMembers
    [("chain_id", c.chainId.map unsigned), ("verifying_contract", c.verifyingContract.map .string),
      ("allowed_tokens", c.allowedTokens.map strings),
      ("allowed_spenders", c.allowedSpenders.map strings),
      ("max_amount", c.maxAmount.map .string), ("max_expiration", c.maxExpiration.map unsigned)]

def Policy.fields (p : Policy) : List (String × Option Json) :=
  [("allowed_actions", p.allowedActions.map strings),
    ("allowed_methods", p.allowedMethods.map strings),
    ("allowed_path_prefixes", p.allowedPathPrefixes.map strings),
    ("denied_path_prefixes", p.deniedPathPrefixes.map strings),
    ("max_requests_per_minute", p.maxRequestsPerMinute.map fun n => unsigned n.toUInt64),
    ("label", p.label.map .string),
    ("allowed_asterdex_endpoints", p.allowedAsterdexEndpoints.map strings),
    ("x402", p.x402.map X402Policy.toJson), ("permit2", p.permit2.map Permit2Policy.toJson),
    ("order_caps", p.orderCaps.map fun caps => .array (caps.map OrderAssetCap.toJson)),
    ("allowed_vaults", p.allowedVaults.map strings),
    ("hl_order_caps", p.hlOrderCaps.map fun caps => .array (caps.map HlOrderCap.toJson)),
    ("signer_pubkey", p.signerPubkey.map .string),
    ("policy_signature", p.policySignature.map .string),
    ("policy_authority_sig", p.policyAuthoritySig.map .string),
    ("intent_pubkey", p.intentPubkey.map .string)]

def Policy.toJson (p : Policy) : Json := .object (presentMembers p.fields)

/-! ### Deserializers -/

/-- The deserializer of `OrderAssetCap`. -/
def OrderAssetCap.read : Reader OrderAssetCap := fun v => do
  let found ← record ["symbol", "max_qty", "max_notional"] true v
  let symbol ← mandatory string (found.lookup "symbol")
  let maxQty ← mandatory string (found.lookup "max_qty")
  let maxNotional ← optional string (found.lookup "max_notional")
  pure { symbol, maxQty, maxNotional }

/-- The deserializer of `HlOrderCap`. -/
def HlOrderCap.read : Reader HlOrderCap := fun v => do
  let found ← record ["asset", "max_size", "max_notional"] true v
  let asset ← mandatory u64 (found.lookup "asset")
  let maxSize ← mandatory string (found.lookup "max_size")
  let maxNotional ← optional string (found.lookup "max_notional")
  pure { asset, maxSize, maxNotional }

/-- The deserializer of `X402Policy`. -/
def X402Policy.read : Reader X402Policy := fun v => do
  let found ← record ["chain_id", "token_address", "max_value", "allowed_recipients"] true v
  let chainId ← optional u64 (found.lookup "chain_id")
  let tokenAddress ← optional string (found.lookup "token_address")
  let maxValue ← optional string (found.lookup "max_value")
  let allowedRecipients ← optional (list string) (found.lookup "allowed_recipients")
  pure { chainId, tokenAddress, maxValue, allowedRecipients }

/-- The deserializer of `Permit2Policy`. -/
def Permit2Policy.read : Reader Permit2Policy := fun v => do
  let found ← record ["chain_id", "verifying_contract", "allowed_tokens", "allowed_spenders",
    "max_amount", "max_expiration"] true v
  let chainId ← optional u64 (found.lookup "chain_id")
  let verifyingContract ← optional string (found.lookup "verifying_contract")
  let allowedTokens ← optional (list string) (found.lookup "allowed_tokens")
  let allowedSpenders ← optional (list string) (found.lookup "allowed_spenders")
  let maxAmount ← optional string (found.lookup "max_amount")
  let maxExpiration ← optional u64 (found.lookup "max_expiration")
  pure { chainId, verifyingContract, allowedTokens, allowedSpenders, maxAmount, maxExpiration }

/-- The deserializer of `Policy`. -/
def Policy.read : Reader Policy := fun v => do
  let found ← record ["allowed_actions", "allowed_methods", "allowed_path_prefixes",
    "denied_path_prefixes", "max_requests_per_minute", "label", "allowed_asterdex_endpoints",
    "x402", "permit2", "order_caps", "allowed_vaults", "hl_order_caps", "signer_pubkey",
    "policy_signature", "policy_authority_sig", "intent_pubkey"] true v
  let allowedActions ← optional (list string) (found.lookup "allowed_actions")
  let allowedMethods ← optional (list string) (found.lookup "allowed_methods")
  let allowedPathPrefixes ← optional (list string) (found.lookup "allowed_path_prefixes")
  let deniedPathPrefixes ← optional (list string) (found.lookup "denied_path_prefixes")
  let maxRequestsPerMinute ← optional u32 (found.lookup "max_requests_per_minute")
  let label ← optional string (found.lookup "label")
  let allowedAsterdexEndpoints ← optional (list string) (found.lookup "allowed_asterdex_endpoints")
  let x402 ← optional X402Policy.read (found.lookup "x402")
  let permit2 ← optional Permit2Policy.read (found.lookup "permit2")
  let orderCaps ← optional (list OrderAssetCap.read) (found.lookup "order_caps")
  let allowedVaults ← optional (list string) (found.lookup "allowed_vaults")
  let hlOrderCaps ← optional (list HlOrderCap.read) (found.lookup "hl_order_caps")
  let signerPubkey ← optional string (found.lookup "signer_pubkey")
  let policySignature ← optional string (found.lookup "policy_signature")
  let policyAuthoritySig ← optional string (found.lookup "policy_authority_sig")
  let intentPubkey ← optional string (found.lookup "intent_pubkey")
  pure
    { allowedActions, allowedMethods, allowedPathPrefixes, deniedPathPrefixes,
      maxRequestsPerMinute, label, allowedAsterdexEndpoints, x402, permit2, orderCaps,
      allowedVaults, hlOrderCaps, signerPubkey, policySignature, policyAuthoritySig,
      intentPubkey }

/-! ### The tool -/

structure WrapEnv where
  treeFromSlice : Bytes → Option Json
  toVec : Json → Option Bytes
  toVecPretty : Json → Option Bytes
  ed25519PublicKey : Bytes → Bytes
  ed25519Sign : Bytes → Bytes → Bytes
  aesGcmEncrypt : Bytes → Bytes → Bytes → Bytes → Option Bytes
  base64Encode : Bytes → String
  base64Decode : String → Option Bytes

inductive SanityError where
  | labelTooLong (chars size : ℕ)
  | emptyAllowedPath
  | emptyDeniedPath
  | emptyAsterdexEndpoint
  | maxRequestsPerMinute
  | x402Incomplete
  | x402Token (address : String)
  | x402Recipient (address : String)
  | vault (address : String)
  | bothVenues (implicit : Bool)
  deriving DecidableEq, Repr

inductive PolicyError where
  | badSeed
  | badPolicy
  | alreadySigned
  | roundTrip
  | sanity (error : SanityError)
  | serialize
  deriving DecidableEq, Repr

mutual

def stripJsonNulls : Json → Json
  | .object members => .object (stripMembers members)
  | .array items => .array (stripItems items)
  | other => other

def stripItems : List Json → List Json
  | [] => []
  | item :: items => stripJsonNulls item :: stripItems items

def stripMembers : List (String × Json) → List (String × Json)
  | [] => []
  | (_, .null) :: members => stripMembers members
  | (name, value) :: members => (name, stripJsonNulls value) :: stripMembers members

end

def orError {ε α : Type} (e : ε) : Option α → Except ε α
  | some a => .ok a
  | none => .error e

/-- `bail!` under a condition. -/
def bailIf {ε : Type} (condition : Bool) (e : ε) : Except ε Unit :=
  if condition then .error e else .ok ()

def assertPolicyRoundTrip (tool : WrapEnv) (policyBytes : Bytes) (policy : Policy) :
    Except PolicyError Unit :=
  match tool.treeFromSlice policyBytes with
  | none => .error .roundTrip
  | some tree => bailIf (!eqv (stripJsonNulls (value tree)) policy.toJson) .roundTrip

def checkLabel (p : Policy) : Except SanityError Unit :=
  match p.label with
  | none => .ok ()
  | some label => bailIf (128 < label.length) (.labelTooLong label.length label.utf8ByteSize)

def refuseEmpty (e : SanityError) (items : Option (List String)) : Except SanityError Unit :=
  (items.getD []).forM fun item => bailIf (item = "") e

def x402Intended (p : Policy) : Bool :=
  (p.allowedActions.any fun actions => actions.any (· = "sign_x402_eip3009")) || p.x402.isSome

def x402Incomplete (clause : Option X402Policy) : Bool :=
  clause.all fun x => x.chainId.isNone || x.tokenAddress.isNone || x.maxValue.isNone ||
    x.allowedRecipients.all List.isEmpty

def isEvmAddress (s : String) : Bool :=
  let digits := ((stripPrefix "0x" s).or (stripPrefix "0X" s)).getD s
  digits.utf8ByteSize = 40 ∧ digits.toList.all isAsciiHexdigit

def checkAddresses (e : String → SanityError) (items : Option (List String)) :
    Except SanityError Unit :=
  (items.getD []).forM fun item => bailIf (!isEvmAddress item) (e item)

def permitsBothVenues (p : Policy) : Bool :=
  p.allowedActions.all fun actions =>
    actions.any (startsWith · "sign_hyperliquid") && actions.any (· = "sign_asterdex")

def sanityCheckPolicy (p : Policy) : Except SanityError Unit := do
  checkLabel p
  refuseEmpty .emptyAllowedPath p.allowedPathPrefixes
  refuseEmpty .emptyDeniedPath p.deniedPathPrefixes
  refuseEmpty .emptyAsterdexEndpoint p.allowedAsterdexEndpoints
  bailIf p.maxRequestsPerMinute.isSome .maxRequestsPerMinute
  bailIf (x402Intended p && x402Incomplete p.x402) .x402Incomplete
  checkAddresses .x402Token ((p.x402.bind (·.tokenAddress)).map fun token => [token])
  checkAddresses .x402Recipient (p.x402.bind (·.allowedRecipients))
  checkAddresses .vault p.allowedVaults
  bailIf (permitsBothVenues p) (.bothVenues p.allowedActions.isNone)

def policyCanonicalSignable (tool : WrapEnv) (policy : Policy) : Option Bytes :=
  tool.toVec { policy with
    signerPubkey := none, policySignature := none, policyAuthoritySig := none }.toJson

/-- `POLICY_AUTHORITY_DOMAIN`, the tool's copy. -/
def policyAuthorityDomain : Bytes := bytes "signer-policy-authority-v1" ++ [0]

/-- `policy_authority_message`, the tool's copy. -/
def policyAuthorityMessage (customerId venue : String) (canonicalPolicy : Bytes) : Bytes :=
  policyAuthorityDomain ++ lengthPrefixed 4 (bytes customerId) ++
    lengthPrefixed 4 (bytes venue) ++ lengthPrefixed 4 canonicalPolicy

def signPolicyAuthority (tool : WrapEnv) (policy : Policy) (customerId venue : String)
    (seed : Bytes) : Option String := do
  let canonical ← policyCanonicalSignable tool policy
  let message := policyAuthorityMessage customerId venue canonical
  pure (hexEncode (tool.ed25519Sign seed message))

/-- `cmd_policy_sign`: the text that is written. The seed is given in hex, by a file or by the
environment. -/
def policySign (tool : WrapEnv) (privHex : String) (policyBytes : Bytes)
    (customerId venue : String) : Except PolicyError Bytes := do
  let seed ← orError .badSeed (hexDecodeExact 32 (trim privHex))
  let policy ← orError .badPolicy ((tool.treeFromSlice policyBytes).bind Policy.read)
  bailIf policy.policyAuthoritySig.isSome .alreadySigned
  assertPolicyRoundTrip tool policyBytes policy
  (sanityCheckPolicy policy).mapError .sanity
  let sig ← orError .serialize (signPolicyAuthority tool policy customerId venue seed)
  orError .serialize (tool.toVecPretty { policy with policyAuthoritySig := some sig }.toJson)

end PolicyCli

end Signer
