import Mathlib.Data.List.Nodup

/-!
# Names on the wire

Actions and error codes travel as strings. The enclave only ever compares them
with fixed names, so both are enumerations here, with the strings they stand for.
An action the dispatcher does not know keeps its own name, because two prefix tests
look at the name of any action. JSON values are those of `serde_json`.
-/

namespace Signer

inductive JsonNumber where
  | posInt (n : UInt64)
  | negInt (n : Int)
  | float (bits : UInt64)
  deriving DecidableEq, Repr

inductive Json where
  | null
  | bool (b : Bool)
  | number (n : JsonNumber)
  | string (s : String)
  | array (items : List Json)
  | object (members : List (String × Json))

namespace Json

/-- `Value::get`: the member of an object, nothing on any other value. -/
def get (key : String) : Json → Option Json
  | object members => members.lookup key
  | _ => none

def asStr : Json → Option String
  | string s => some s
  | _ => none

def asArray : Json → Option (List Json)
  | array items => some items
  | _ => none

/-- `Value::as_u64`: a nonnegative integer; floats never convert. -/
def asU64 : Json → Option UInt64
  | number (.posInt n) => some n
  | _ => none

def isObject : Json → Bool
  | object _ => true
  | _ => false

end Json

def knownActions : List String :=
  ["ping", "registry_challenge", "registry_refresh", "provision_data_key", "provision_agent_key",
    "attestation", "sign", "sign_kucoin", "sign_binance", "sign_binance_request", "sign_bybit",
    "sign_okx", "sign_hyperliquid_main_order", "sign_hyperliquid_main_cancel",
    "sign_hyperliquid_testnet_order", "sign_hyperliquid_testnet_cancel", "sign_asterdex",
    "sign_data", "sign_x402_eip3009", "sign_permit2_permit_single", "sign_binance_order",
    "sign_binance_cancel", "sign_okx_order", "sign_okx_cancel", "receipt_heartbeat", "verify_blob"]

inductive Action where
  | ping | registryChallenge | registryRefresh | provisionDataKey | provisionAgentKey
  | attestation | sign | signKucoin | signBinance | signBinanceRequest | signBybit | signOkx
  | signHyperliquidMainOrder | signHyperliquidMainCancel
  | signHyperliquidTestnetOrder | signHyperliquidTestnetCancel
  | signAsterdex | signData | signX402Eip3009 | signPermit2PermitSingle
  | signBinanceOrder | signBinanceCancel | signOkxOrder | signOkxCancel
  | receiptHeartbeat | verifyBlob
  | other (name : {name : String // name ∉ knownActions})
  deriving DecidableEq

def Action.name : Action → String
  | ping => "ping"
  | registryChallenge => "registry_challenge"
  | registryRefresh => "registry_refresh"
  | provisionDataKey => "provision_data_key"
  | provisionAgentKey => "provision_agent_key"
  | attestation => "attestation"
  | sign => "sign"
  | signKucoin => "sign_kucoin"
  | signBinance => "sign_binance"
  | signBinanceRequest => "sign_binance_request"
  | signBybit => "sign_bybit"
  | signOkx => "sign_okx"
  | signHyperliquidMainOrder => "sign_hyperliquid_main_order"
  | signHyperliquidMainCancel => "sign_hyperliquid_main_cancel"
  | signHyperliquidTestnetOrder => "sign_hyperliquid_testnet_order"
  | signHyperliquidTestnetCancel => "sign_hyperliquid_testnet_cancel"
  | signAsterdex => "sign_asterdex"
  | signData => "sign_data"
  | signX402Eip3009 => "sign_x402_eip3009"
  | signPermit2PermitSingle => "sign_permit2_permit_single"
  | signBinanceOrder => "sign_binance_order"
  | signBinanceCancel => "sign_binance_cancel"
  | signOkxOrder => "sign_okx_order"
  | signOkxCancel => "sign_okx_cancel"
  | receiptHeartbeat => "receipt_heartbeat"
  | verifyBlob => "verify_blob"
  | other name => name.val

def Action.known : List Action :=
  [ping, registryChallenge, registryRefresh, provisionDataKey, provisionAgentKey, attestation, sign,
    signKucoin, signBinance, signBinanceRequest, signBybit, signOkx, signHyperliquidMainOrder,
    signHyperliquidMainCancel, signHyperliquidTestnetOrder, signHyperliquidTestnetCancel,
    signAsterdex, signData, signX402Eip3009, signPermit2PermitSingle, signBinanceOrder,
    signBinanceCancel, signOkxOrder, signOkxCancel, receiptHeartbeat, verifyBlob]

theorem Action.known_map_name : Action.known.map Action.name = knownActions := rfl

theorem Action.mem_known_or (a : Action) : a ∈ Action.known ∨ ∃ n, a = .other n := by
  cases a with
  | other n => exact .inr ⟨n, rfl⟩
  | _ => exact .inl (by decide)

theorem Action.name_injective : Function.Injective Action.name := by
  intro a b h
  have hmem : ∀ a ∈ Action.known, a.name ∈ knownActions := fun a ha =>
    Action.known_map_name ▸ List.mem_map_of_mem ha
  rcases a.mem_known_or with ha | ⟨n, rfl⟩ <;> rcases b.mem_known_or with hb | ⟨m, rfl⟩
  · have hnodup : (Action.known.map Action.name).Nodup := by decide +kernel
    exact List.inj_on_of_nodup_map hnodup ha hb h
  · have hname : (Action.other m).name ∈ knownActions := h ▸ hmem a ha
    exact absurd hname m.property
  · have hname : (Action.other n).name ∈ knownActions := h ▸ hmem b hb
    exact absurd hname n.property
  · exact congrArg Action.other (Subtype.ext h)

inductive ErrCode where
  | badRequest | payloadTooLarge | internalError | kmsDecryptDenied | policyDenied
  | policyRequired | contextRequired | rateLimited | unimplementedPolicyField
  | receiptsUnavailable | verifyFailed
  | registryNonceRejected | registrySignatureRejected | registryEntriesRejected
  | registryVersionRejected
  | provisionKeyDerivationFailed | provisionWrapFailed | provisionSealFailed
  | actionNotAllowed | sizeOverCap | notionalOverCap | withdrawalNotSignable
  | modeCancelOnly | modeHalted
  deriving DecidableEq, Repr

def ErrCode.text : ErrCode → String
  | badRequest => "bad_request"
  | payloadTooLarge => "payload_too_large"
  | internalError => "internal_error"
  | kmsDecryptDenied => "kms_decrypt_denied"
  | policyDenied => "policy_denied"
  | policyRequired => "policy_required"
  | contextRequired => "context_required"
  | rateLimited => "rate_limited"
  | unimplementedPolicyField => "unimplemented_policy_field"
  | receiptsUnavailable => "receipts_unavailable"
  | verifyFailed => "verify_failed"
  | registryNonceRejected => "registry_nonce_rejected"
  | registrySignatureRejected => "registry_signature_rejected"
  | registryEntriesRejected => "registry_entries_rejected"
  | registryVersionRejected => "registry_version_rejected"
  | provisionKeyDerivationFailed => "provision_key_derivation_failed"
  | provisionWrapFailed => "provision_wrap_failed"
  | provisionSealFailed => "provision_seal_failed"
  | actionNotAllowed => "action_not_allowed"
  | sizeOverCap => "size_over_cap"
  | notionalOverCap => "notional_over_cap"
  | withdrawalNotSignable => "withdrawal_not_signable"
  | modeCancelOnly => "mode_cancel_only"
  | modeHalted => "mode_halted"

end Signer
