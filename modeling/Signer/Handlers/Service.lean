import Signer.Handlers.Evm

/-!
# The service handlers

The handlers that sign no tenant order: attested data, the blob pre-flight, heartbeats,
attestation, the tenant registry, and the provisioning of keys born inside.
-/

namespace Signer

open Text Proc

/-! ### Attested data -/

def maxAttestedDataBytes : Nat := 32 * 1024

def attestedDataDigestV1 (env : Env) (canonical : Bytes) : Bytes :=
  env.keccak256 (bytes "usenami-attested-data-v1" ++ canonical)

def signAttestedData (env : Env) (privateKey : Bytes) (value : Json) : Option HlSignature := do
  let canonical ← canonicalV1 value
  signEip712Digest env privateKey (attestedDataDigestV1 env canonical)

def handleSignData (env : Env) (amb : Ambient) (req : SignRequest) (identity : ResolvedIdentity) :
    Handler SignResponse := do
  let raw ← Proc.ofOption req.data (.err .badRequest)
  Proc.ensure (raw.utf8ByteSize ≤ maxAttestedDataBytes) (.err .badRequest)
  let data ← Proc.ofOption (env.jsonNoDupKeys raw) (.err .badRequest)
  let blob ← openBlob env amb req identity
  let secret ← completeSecret (env.hyperliquidSecretFromValue blob.secretJson)
    HyperliquidSecret.isComplete none
  let pk ← Proc.ofOption (parseEvmPrivateKey secret.privateKey) (.err .badRequest)
  -- The key stays resident for receipts, whether or not this signature succeeds.
  Proc.update fun s => (.ok (), { s with receipts := s.receipts.installKey pk })
  let signature ← Proc.ofOption (signAttestedData env pk data) (.err .badRequest)
  let pubkey ← Proc.ofOption (attestedDataPubkey env pk) (.err .provisionKeyDerivationFailed)
  releaseSignature (.attestedData pk data)
    (.okAttestedData { signature, pubkeyCompressed := pubkey.1, pubkeyAddress := pubkey.2 })

/-! ### Pre-flight -/

/-- How `handle_verify_blob` answers a failed load. -/
def LoadSecretError.verifyResponse : LoadSecretError → SignResponse
  | badRequest => .err .badRequest
  | kmsDenied | internal => .err .verifyFailed
  | policyRequired => .err .policyRequired

def handleVerifyBlob (env : Env) (amb : Ambient) (req : SignRequest)
    (identity : ResolvedIdentity) : Handler SignResponse := do
  let venue := req.path.getD ""
  Proc.ensure (identity.venueAllowed venue) (.err .badRequest)
  let plaintext ← (loadSecretFor env amb req identity venue).mapError LoadSecretError.verifyResponse
  let parsed ← Proc.ofOption (parseBlob env plaintext) (.err .verifyFailed)
  Proc.ensure (blobFloorStrict (policyRequired env) venue = true → parsed.policy.isSome)
    (.err .policyRequired)
  pure (.okVerifyBlob (hexEncode (env.sha256 plaintext)) (.ofNat plaintext.length))

/-! ### Heartbeats and attestation -/

def handleReceiptHeartbeat (env : Env) (req : SignRequest) (identity : ResolvedIdentity) :
    Handler SignResponse := do
  let nonce ← Proc.ofOption req.clientNonce (.err .badRequest)
  Proc.ensure (nonce ≠ "" ∧ nonce.utf8ByteSize ≤ maxClientNonceLen) (.err .badRequest)
  Proc.ensure (nonce.toList.all fun c => isAsciiAlphanumeric c ∨ c = '-' ∨ c = '_')
    (.err .badRequest)
  let issued ← Proc.read fun s =>
    s.receipts.issueHeartbeat env identity nonce s.registry.version
  match issued with
  | .ok hb => pure { SignResponse.ok "" with heartbeat := some hb }
  | .error .noKey => Proc.refuse (.err .receiptsUnavailable)
  | .error (.internal _) => Proc.refuse (.err .internalError)

def maxAttestField : Nat := 1024

/-- The `decode_bounded` of `handle_attestation`: a field that is present must be
hexadecimal, not empty and not too long. -/
def decodeBounded (field : Option String) : Except Unit (Option Bytes) :=
  match field with
  | none => .ok none
  | some h =>
    if h = "" ∨ maxAttestField * 2 < h.utf8ByteSize ∨ h.utf8ByteSize % 2 ≠ 0 ∨
        !h.toList.all isAsciiHexdigit then .error ()
    else
      match hexDecode h with
      | none => .error ()
      | some b => .ok (some b)

def handleAttestation (env : Env) (req : SignRequest) : Handler SignResponse := do
  let bad : Unit → SignResponse := fun _ => .err .badRequest
  let nonce ← Proc.ofExcept ((decodeBounded req.attestationNonce).mapError bad)
  let userData ← Proc.ofExcept ((decodeBounded req.attestationUserData).mapError bad)
  let pubkey ← Proc.read fun s => s.receipts.publicKeyCompressed env
  let doc ← Proc.ofOption (env.nsmAttestation nonce userData pubkey) (.err .internalError)
  pure (.okAttestation (env.base64Encode doc))

/-! ### The tenant registry -/

def handleRegistryChallenge (amb : Ambient) : Handler SignResponse := do
  let nonceHex ← Proc.update fun s =>
    let opened := s.registry.challenge amb.challengeNonce
    (.ok opened.1, { s with registry := opened.2 })
  pure (.ok nonceHex)

def registryBlobContext : EncryptionContext :=
  { customerId := "registry-system", venueId := "registry" }

def handleRegistryRefresh (env : Env) (req : SignRequest) : Handler SignResponse := do
  let params ← Proc.ofOption req.registryRefresh (.err .badRequest)
  let creds ← Proc.ofOption req.awsCredentials (.err .badRequest)
  let ciphertext ← Proc.ofOption (req.ciphertextBlobBase64.bind env.base64Decode) (.err .badRequest)
  Proc.ensure (ciphertext ≠ [] ∧ ciphertext.length ≤ maxCiphertextBytes) (.err .badRequest)
  let entriesJson ← Proc.ofExcept
    ((env.kmsDecrypt creds ciphertext registryBlobContext).mapError fun _ =>
      SignResponse.err .kmsDecryptDenied)
  let version ← Proc.update fun s =>
    let refreshed := s.registry.refresh env entriesJson params.nonceHex params.version
      params.signatureHex
    (refreshed.1.mapError fun e => SignResponse.err e.wireCode,
      { s with registry := refreshed.2 })
  pure (.ok (decimalText version))

/-! ### Provisioning -/

/-- `build_data_key_plaintext`: the fixed policy lets the key sign data only. -/
def buildDataKeyPlaintext (privHex pubkeyAddress : String) : Bytes :=
  bytes ("\x7b\"policy\":\x7b\"allowed_actions\":[\"sign_data\"],\"label\":" ++
    "\"attested-data service key (enclave-provisioned)\"\x7d,\"secret\":\x7b\"exchange\":" ++
    "\"attested-data\",\"private_key\":\"0x" ++ privHex ++ "\",\"wallet_address\":\"" ++
    pubkeyAddress ++ "\"\x7d\x7d")

def isAgentKeyVenue (venue : String) : Bool :=
  venue ∈ ["hyperliquid_main", "hyperliquid_testnet"]

/-- `build_agent_key_plaintext`: the policy goes in as it was sent. -/
def buildAgentKeyPlaintext (policyJson venue privHex pubkeyAddress : String) : Bytes :=
  bytes ("\x7b\"policy\":" ++ policyJson ++ ",\"secret\":\x7b\"exchange\":\"" ++ venue ++
    "\",\"private_key\":\"0x" ++ privHex ++ "\",\"wallet_address\":\"" ++ pubkeyAddress ++
    "\"\x7d\x7d")

def Envelope.toJson (e : Envelope) : Json :=
  .object [("version", Policy.unsigned e.version), ("wrapped_dek", .string e.wrappedDek),
    ("nonce", .string e.nonce), ("ciphertext", .string e.ciphertext)]

def sealWithDek (env : Env) (amb : Ambient) (dek wrappedDek plaintext aad : Bytes) :
    Option Envelope :=
  if dek.length ≠ 32 then none
  else
    (env.aesGcmEncrypt dek amb.sealNonce aad plaintext).map fun ciphertext =>
      { version := envelopeVersion
        wrappedDek := env.base64Encode wrappedDek
        nonce := env.base64Encode amb.sealNonce
        ciphertext := env.base64Encode ciphertext }

def provisionKey (env : Env) (amb : Ambient) (creds : AwsCredentials) (keyId : String)
    (id : ResolvedIdentity) (venue : String) (plaintextOf : String → String → Bytes) :
    Handler SignResponse := do
  let pubkey ← Proc.ofOption (attestedDataPubkey env amb.mintedKey) (.err .internalError)
  Proc.ensure (amb.mintedKey.length = 32) (.err .provisionKeyDerivationFailed)
  let plaintext := plaintextOf (hexEncode amb.mintedKey) pubkey.2
  let wrapped ← Proc.ofExcept
    ((env.kmsEncrypt creds keyId amb.mintedDek (id.encryptionContext venue)).mapError fun
      | .accessDenied => SignResponse.err .kmsDecryptDenied
      | .internal => SignResponse.err .provisionWrapFailed)
  let envelope ← Proc.ofOption
    (sealWithDek env amb amb.mintedDek wrapped plaintext (id.sealedAad venue keyVersion))
    (.err .provisionSealFailed)
  let blob ← Proc.ofOption (env.jsonToVec envelope.toJson) (.err .provisionSealFailed)
  pure (.okProvision { envelopeB64 := env.base64Encode blob, pubkeyCompressed := pubkey.1,
                       pubkeyAddress := pubkey.2 })

def filled (field : Option String) : Handler String :=
  Proc.ofOption (field.filter fun s => s ≠ "") (.err .badRequest)

def handleProvisionDataKey (env : Env) (amb : Ambient) (req : SignRequest) :
    Handler SignResponse := do
  let creds ← Proc.ofOption req.awsCredentials (.err .badRequest)
  let keyId ← filled req.keyId
  provisionKey env amb creds keyId .forDataSigning "data-signing" buildDataKeyPlaintext

def mintFloor (env : Env) (policy : Policy) (customerId venue : String) :
    Except SignResponse Unit :=
  if policy.intentPubkey.isSome ∧ isHlVenue venue then .error (.err .policyRequired)
  else if blobFloorStrict (policyRequired env) venue && isMoneyVenue venue then
    match admitStrict env policy customerId venue with
    | .ok () => .ok ()
    | .error .policyRequired => .error (.err .policyRequired)
    | .error _ => .error (.err .badRequest)
  else .ok ()

def handleProvisionAgentKey (env : Env) (amb : Ambient) (req : SignRequest) :
    Handler SignResponse := do
  let creds ← Proc.ofOption req.awsCredentials (.err .badRequest)
  let keyId ← filled req.keyId
  let venue ← filled req.provisionVenue
  let customerId ← filled req.provisionCustomerId
  let policyRaw ← filled req.provisionPolicy
  Proc.ensure (isAgentKeyVenue venue) (.err .policyDenied)
  Proc.ensure (isSafeId customerId) (.err .badRequest)
  let policy ← Proc.ofOption (env.policyFromStr policyRaw) (.err .badRequest)
  Proc.ofExcept (mintFloor env policy customerId venue)
  provisionKey env amb creds keyId (.forProvisionedAgent customerId venue) venue
    (buildAgentKeyPlaintext policyRaw venue)

/-! ### What the service handlers leave behind -/

section

variable {env : Env} {amb : Ambient} {req : SignRequest} {identity : ResolvedIdentity}
  {s s' : Enclave} {resp : SignResponse} {t : List Event}

theorem handleSignData_signs (h : (handleSignData env amb req identity).Returns s resp s' t) :
    ∃ blob venue s₁ key value, Opens env amb req identity s blob venue s₁ ∧
      t = signTrace identity venue blob none (.attestedData key value) := by
  simp only [handleSignData, returns_ofOption_bind, returns_ensure_bind,
    returns_openBlob_bind, returns_completeSecret_bind, returns_update_bind,
    returns_releaseSignature] at h
  obtain ⟨raw, -, -, data, -, blob, venue, s₁, t₁, hopens,
    ⟨secret, -, pk, -, -, s₂, -, signature, -, pubkey, -, -, -, rfl⟩, rfl⟩ := h
  exact ⟨blob, venue, s₁, pk, data, hopens, rfl⟩

theorem handleVerifyBlob_silent : (handleVerifyBlob env amb req identity).Silent :=
  silent_bind (silent_ensure _ _) fun _ =>
    silent_bind (silent_mapError loadSecretFor_silent) fun _ =>
    silent_ofOption_bind fun _ =>
    silent_bind (silent_ensure _ _) fun _ => silent_pure _

theorem handleVerifyBlob_returns (h : (handleVerifyBlob env amb req identity).Returns s resp s' t) :
    ∃ plaintext parsed cache, identity.venueAllowed (req.path.getD "") = true ∧
      (loadSecretFor env amb req identity (req.path.getD "")).Returns s plaintext
        { s with dekCache := cache } [] ∧
      parseBlob env plaintext = some parsed ∧
      (blobFloorStrict (policyRequired env) (req.path.getD "") = true →
        parsed.policy.isSome = true) := by
  obtain ⟨hallowed, h⟩ := returns_ensure_bind.mp h
  obtain ⟨plaintext, s₁, t₁, t₂, hload, h, -⟩ := returns_bind.mp h
  rw [returns_mapError] at hload
  obtain ⟨parsed, hparse, h⟩ := returns_ofOption_bind.mp h
  obtain ⟨hfloor, -⟩ := returns_ensure_bind.mp h
  obtain ⟨rfl, hs₁⟩ := loadSecretFor_returns hload
  exact ⟨plaintext, parsed, s₁.dekCache, hallowed, hs₁ ▸ hload, hparse, hfloor⟩

theorem handleVerifyBlob_keeps {I : Enclave → Prop} (hI : HandlerInvariant env I) :
    (handleVerifyBlob env amb req identity).Keeps I := by
  refine keeps_ensure_bind.mpr fun _ => ?_
  refine keeps_bind (keeps_mapError
    (loadSecretFor_keeps hI.toCacheInvariant)) fun plaintext => ?_
  simp

theorem handleReceiptHeartbeat_keeps {I : Enclave → Prop} :
    (handleReceiptHeartbeat env req identity).Keeps I := by
  simp only [handleReceiptHeartbeat, keeps_ofOption_bind, keeps_ensure_bind]
  intro nonce _ _ _
  refine keeps_read_bind fun issued => ?_
  rcases issued with ⟨_ | _⟩ | hb <;> simp

theorem handleReceiptHeartbeat_silent : (handleReceiptHeartbeat env req identity).Silent := by
  refine silent_ofOption_bind fun _ =>
    silent_bind (silent_ensure _ _) fun _ =>
    silent_bind (silent_ensure _ _) fun _ =>
    silent_bind (silent_read _) fun issued => ?_
  rcases issued with ⟨_ | _⟩ | hb
  · exact silent_refuse _
  · exact silent_refuse _
  · exact silent_pure _

theorem handleAttestation_silent : (handleAttestation env req).Silent :=
  silent_bind (silent_ofExcept _) fun _ =>
    silent_bind (silent_ofExcept _) fun _ =>
    silent_bind (silent_read _) fun _ =>
    silent_ofOption_bind fun _ => silent_pure _

theorem handleRegistryRefresh_silent : (handleRegistryRefresh env req).Silent :=
  silent_ofOption_bind fun _ =>
    silent_ofOption_bind fun _ =>
    silent_ofOption_bind fun _ =>
    silent_bind (silent_ensure _ _) fun _ =>
    silent_bind (silent_ofExcept _) fun _ =>
    silent_bind (silent_update _) fun _ => silent_pure _

theorem provisionKey_silent {creds : AwsCredentials} {keyId venue : String}
    {plaintextOf : String → String → Bytes} :
    (provisionKey env amb creds keyId identity venue plaintextOf).Silent :=
  silent_ofOption_bind fun _ =>
    silent_bind (silent_ensure _ _) fun _ =>
    silent_bind (silent_ofExcept _) fun _ =>
    silent_ofOption_bind fun _ =>
    silent_ofOption_bind fun _ => silent_pure _

theorem handleProvisionDataKey_silent : (handleProvisionDataKey env amb req).Silent :=
  silent_ofOption_bind fun _ =>
    silent_ofOption_bind fun _ => provisionKey_silent

theorem handleProvisionAgentKey_silent : (handleProvisionAgentKey env amb req).Silent :=
  silent_ofOption_bind fun _ =>
    silent_ofOption_bind fun _ =>
    silent_ofOption_bind fun _ =>
    silent_ofOption_bind fun _ =>
    silent_ofOption_bind fun _ =>
    silent_bind (silent_ensure _ _) fun _ =>
    silent_bind (silent_ensure _ _) fun _ =>
    silent_ofOption_bind fun _ =>
    silent_bind (silent_ofExcept _) fun _ => provisionKey_silent

end

end Signer
