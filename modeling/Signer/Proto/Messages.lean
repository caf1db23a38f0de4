import Signer.Proto.Policy

/-!
# Requests and responses

One request frame carries every field any action reads; all but the action are
optional on the wire. The fields are those of `proto.rs` that the modelled handlers
read.
-/

namespace Signer

/-- `REQUIRED_PROTO_VERSION`: older gateways do not forward a token. -/
def requiredProtoVersion : UInt8 := 1

/-- `MAX_MESSAGE_BYTES`: the longest frame the listener reads. -/
def maxMessageBytes : Nat := 64 * 1024

structure AwsCredentials where
  accessKeyId : String
  secretAccessKey : String
  sessionToken : String
  deriving DecidableEq, Repr

structure OrderRequest where
  symbol : String
  side : String
  qty : String
  ordType : String
  price : Option String := none
  reduceOnly : Bool := false
  clientOrderId : Option String := none
  deriving DecidableEq, Repr

structure CancelRequest where
  symbol : String
  orderId : String
  deriving DecidableEq, Repr

structure X402Request where
  tokenName : String
  tokenVersion : String
  chainId : UInt64
  tokenAddress : String
  sender : String
  recipient : String
  value : String
  validAfter : UInt64
  validBefore : UInt64
  nonce : String
  deriving DecidableEq, Repr

structure Permit2Request where
  chainId : UInt64
  verifyingContract : String
  token : String
  amount : String
  expiration : UInt64
  nonce : UInt64
  spender : String
  sigDeadline : String
  deriving DecidableEq, Repr

structure RegistryRefreshParams where
  nonceHex : String
  version : UInt64
  signatureHex : String
  deriving DecidableEq, Repr

structure SignRequest where
  action : Action
  protoVersion : UInt8 := 0
  opaqueToken : Option String := none
  method : Option String := none
  path : Option String := none
  body : Option String := none
  timestampMs : Option UInt64 := none
  keyId : Option String := none
  awsCredentials : Option AwsCredentials := none
  ciphertextBlobBase64 : Option String := none
  query : Option String := none
  op : Option String := none
  payload : Option String := none
  hlAction : Option Json := none
  nonce : Option UInt64 := none
  vaultAddress : Option String := none
  x402 : Option X402Request := none
  permit2 : Option Permit2Request := none
  order : Option OrderRequest := none
  cancel : Option CancelRequest := none
  data : Option String := none
  registryRefresh : Option RegistryRefreshParams := none
  intentSignature : Option String := none
  intentNonce : Option String := none
  attestationNonce : Option String := none
  attestationUserData : Option String := none
  clientNonce : Option String := none
  provisionVenue : Option String := none
  provisionCustomerId : Option String := none
  provisionPolicy : Option String := none

structure HlSignature where
  r : String
  s : String
  v : UInt8
  deriving DecidableEq, Repr

structure DecisionReceipt where
  v : String
  decision : String
  reasonCode : String
  customerId : String
  action : String
  requestHash : String
  intentSigHash : String
  policyHash : String
  suppliedTsMs : String
  bootId : String
  seq : String
  signature : HlSignature
  deriving DecidableEq, Repr

structure ReceiptHeartbeat where
  v : String
  bootId : String
  customerId : String
  seqNext : String
  clientNonce : String
  registryVersion : String
  entryHash : String
  signature : HlSignature
  deriving DecidableEq, Repr

structure AttestedDataResponse where
  signature : HlSignature
  pubkeyCompressed : String
  pubkeyAddress : String
  deriving DecidableEq, Repr

structure ProvisionDataKeyResponse where
  envelopeB64 : String
  pubkeyCompressed : String
  pubkeyAddress : String
  deriving DecidableEq, Repr

structure SignResponse where
  signatureBase64 : String := ""
  headers : Option (List (String × String)) := none
  hlSignature : Option HlSignature := none
  attested : Option AttestedDataResponse := none
  provision : Option ProvisionDataKeyResponse := none
  error : Option ErrCode := none
  receipt : Option DecisionReceipt := none
  policyHash : Option String := none
  plaintextSha256 : Option String := none
  plaintextLen : Option UInt64 := none
  canonicalBody : Option String := none
  heartbeat : Option ReceiptHeartbeat := none
  attestationDocumentB64 : Option String := none
  deriving DecidableEq, Repr

namespace SignResponse

def ok (signatureBase64 : String) : SignResponse := { signatureBase64 }

def okVerifyBlob (plaintextSha256Hex : String) (plaintextLen : UInt64) : SignResponse :=
  { plaintextSha256 := some plaintextSha256Hex, plaintextLen := some plaintextLen }

def okHeaders (headers : List (String × String)) : SignResponse := { headers := some headers }

def err (code : ErrCode) : SignResponse := { error := some code }

def okAttestation (doc : String) : SignResponse := { attestationDocumentB64 := some doc }

def okHlSignature (sig : HlSignature) : SignResponse := { hlSignature := some sig }

def okAttestedData (attested : AttestedDataResponse) : SignResponse :=
  { attested := some attested }

def okProvision (provision : ProvisionDataKeyResponse) : SignResponse :=
  { provision := some provision }

def withPolicyHash (resp : SignResponse) (hash : Option String) : SignResponse :=
  { resp with policyHash := hash }

def withCanonicalBody (resp : SignResponse) (body : String) : SignResponse :=
  { resp with canonicalBody := some body }

end SignResponse

end Signer
