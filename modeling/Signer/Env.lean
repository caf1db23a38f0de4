import Signer.Proto.Messages

/-!
# The code and configuration around the enclave

Everything the enclave links against and does not implement: ciphers, hashes, signature schemes,
KMS, and the (de)serializers of `serde_json` and `rmp-serde`. All of it is a parameter; a result
that rests on what one of them does says so in a hypothesis.
-/

namespace Signer

/-- A blob under its own data key, as it is stored. -/
structure Envelope where
  version : UInt64
  wrappedDek : String
  nonce : String
  ciphertext : String
  deriving DecidableEq, Repr

/-- What a data key is bound to at KMS. -/
structure EncryptionContext where
  customerId : String
  venueId : String
  deriving DecidableEq, Repr

/-- A tenant, as the control plane describes it. -/
structure RefreshEntry where
  token : String
  customerId : String
  allowedVenues : List String
  mode : Option String := none
  deriving DecidableEq, Repr

inductive KmsError where
  | accessDenied
  | internal
  deriving DecidableEq, Repr

/-- What the enclave links against, and its configuration, which is read once and never changes. -/
structure Env where
  requirePolicy : Option String
  policyPubkey : Option String
  registryPubkey : Option String
  dekCacheTtlSecs : Nat
  dekCacheMax : Nat
  rateCapacity : Nat
  ratePerSec : Nat
  bootId : Bytes
  registryKey : Bytes
  sha256 : Bytes → Bytes
  hmacSha256 : Bytes → Bytes → Bytes
  keccak256 : Bytes → Bytes
  ed25519KeyValid : Bytes → Bool
  ed25519Verify : Bytes → Bytes → Bytes → Bool
  aesGcmDecrypt : Bytes → Bytes → Bytes → Bytes → Option Bytes
  aesGcmEncrypt : Bytes → Bytes → Bytes → Bytes → Option Bytes
  kmsDecrypt : AwsCredentials → Bytes → EncryptionContext → Except KmsError Bytes
  kmsEncrypt : AwsCredentials → String → Bytes → EncryptionContext → Except KmsError Bytes
  base64Encode : Bytes → String
  base64Decode : String → Option Bytes
  secp256k1KeyValid : Bytes → Bool
  secp256k1Sign : Bytes → Bytes → Option (Bytes × UInt8)
  secp256k1PublicKey : Bytes → Bytes
  secp256k1PublicKeyCompressed : Bytes → Bytes
  msgpack : Json → Option Bytes
  requestFromSlice : Bytes → Option SignRequest
  jsonFromSlice : Bytes → Option Json
  jsonToVec : Json → Option Bytes
  jsonNoDupKeys : String → Option Json
  envelopeFromSlice : Bytes → Option Envelope
  wrappedFromValue : Json → Option (Policy × Json)
  policyFromStr : String → Option Policy
  entriesFromSlice : Bytes → Option (List RefreshEntry)
  keySecretFromValue : Json → Option KeySecret
  passphraseSecretFromValue : Json → Option PassphraseSecret
  hyperliquidSecretFromValue : Json → Option HyperliquidSecret
  asterdexSecretFromValue : Json → Option AsterdexSecret
  nsmAttestation : Option Bytes → Option Bytes → Option Bytes → Option Bytes

/-- What a request reads from the clocks and the random source. -/
structure Ambient where
  rateNow : Nat := 0
  cacheGetNow : Nat := 0
  cachePutNow : Nat := 0
  challengeNonce : Bytes := []
  mintedKey : Bytes := []
  mintedDek : Bytes := []
  sealNonce : Bytes := []

end Signer
