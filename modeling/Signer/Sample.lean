import Signer.VsockServer

/-!
# A sample deployment

A concrete environment to evaluate the model in: one customer, whose blob decrypts to a
given plaintext. The decoders answer the inputs that occur with what the real ones answer.
Hashes, MACs and signatures are passed in, and are stand-ins where no decision reads them.
-/

namespace Signer.Sample

open Text

structure Answers where
  plaintext : String := ""
  parsed : ParsedBlob
  policyText : String := ""
  sha256 : Bytes → Bytes := fun _ => List.replicate 32 0
  keccak : List (Bytes × Bytes) := []
  publicKey : Bytes := []
  signature : Option (Bytes × UInt8) := none
  verifies : Bytes → Bytes → Bytes → Bool := fun _ _ _ => false
  frame : String := ""
  request : Option SignRequest := none
  requirePolicy : Option String := none
  policyPubkey : Option String := none

def blobValue : ParsedBlob → Json
  | .withPolicy policy secret => .object [("policy", policy.toJson), ("secret", secret)]
  | .legacy secret => secret

def keySecret (value : Json) : Option KeySecret := do
  let key ← (value.get "key").bind Json.asStr
  let secret ← (value.get "secret").bind Json.asStr
  pure { key, secret }

def passphraseSecret (value : Json) : Option PassphraseSecret := do
  let pair ← keySecret value
  let passphrase ← (value.get "passphrase").bind Json.asStr
  pure { key := pair.key, secret := pair.secret, passphrase }

def evmSecret (value : Json) : Option AsterdexSecret := do
  let privateKey ← (value.get "private_key").bind Json.asStr
  let signerAddress ← (value.get "signer_address").bind Json.asStr
  pure { privateKey, signerAddress }

def customer : String := "acme"

def blobBase64 : String := "YmxvYg=="

def token : String := "sample-token"

def registryKey : Bytes := List.replicate 32 7

def tokenDigest : Bytes :=
  beBytes 32 0x034db89248f5ac28a74ddcb2adf0104bb63c5ecffb7f78758a80ae1942f26d6f

def env (a : Answers) : Env where
  requirePolicy := a.requirePolicy
  policyPubkey := a.policyPubkey
  registryPubkey := none
  dekCacheTtlSecs := 0
  dekCacheMax := 0
  rateCapacity := 60
  ratePerSec := 1
  bootId := List.replicate 16 7
  registryKey := registryKey
  sha256 := a.sha256
  hmacSha256 key _ := if key = registryKey then tokenDigest else
    beBytes 32 0x5d7c86b16bc93ed3815596bd88f4718e10b8240c0e6467980fbfdb64a143589c
  keccak256 b := (a.keccak.lookup b).getD (List.replicate 32 0)
  ed25519KeyValid _ := true
  ed25519Verify := a.verifies
  aesGcmDecrypt _ _ _ _ := none
  aesGcmEncrypt _ _ _ _ := none
  kmsDecrypt _ _ ctx :=
    if ctx.customerId = customer then .ok (bytes a.plaintext) else .error .accessDenied
  kmsEncrypt _ _ _ _ := .error .accessDenied
  base64Encode _ := "c2lnbmF0dXJl"
  base64Decode text := if text = blobBase64 then some [98, 108, 111, 98] else none
  secp256k1KeyValid _ := true
  secp256k1Sign _ _ := a.signature
  secp256k1PublicKey _ := a.publicKey
  secp256k1PublicKeyCompressed _ := []
  msgpack _ := none
  requestFromSlice b := if b = bytes a.frame then a.request else none
  jsonFromSlice b := if b = bytes a.plaintext then some (blobValue a.parsed) else none
  jsonToVec _ := some (bytes a.policyText)
  jsonNoDupKeys _ := none
  envelopeFromSlice _ := none
  wrappedFromValue _ := a.parsed.policy.map fun policy => (policy, a.parsed.secretJson)
  policyFromStr _ := none
  entriesFromSlice _ := none
  keySecretFromValue := keySecret
  passphraseSecretFromValue := passphraseSecret
  hyperliquidSecretFromValue _ := none
  asterdexSecretFromValue := evmSecret
  nsmAttestation _ _ _ := none

def identity (venues : List String) (mode : TenantMode) : ResolvedIdentity :=
  { customerId := customer, allowedVenues := venues, mode }

def request (action : Action) : SignRequest where
  action := action
  protoVersion := 1
  opaqueToken := some token
  timestampMs := some 1700000000000
  awsCredentials := some { accessKeyId := "id", secretAccessKey := "key", sessionToken := "token" }
  ciphertextBlobBase64 := some blobBase64

def enclave (venues : List String) (mode : TenantMode) : Enclave where
  registry :=
    { entries := [{ tokenHmac := tokenDigest, customerId := customer, allowedVenues := venues, mode }]
      version := 1 }

def connection (frame : String) : Connection where
  stream := lengthPrefixed lengthPrefixBytes (bytes frame)

def requestFrame (action : Action) (members : String) : String :=
  "\x7b\"action\":\"" ++ action.name ++
    "\",\"proto_version\":1,\"opaque_token\":\"sample-token\"," ++
    "\"timestamp_ms\":1700000000000,\"aws_credentials\":\x7b\"access_key_id\":\"id\"," ++
    "\"secret_access_key\":\"key\",\"session_token\":\"token\"\x7d," ++
    "\"ciphertext_blob_base64\":\"YmxvYg==\"," ++ members ++ "\x7d"

def hmacSecret : Json :=
  .object [("key", .string "sample-key"), ("secret", .string "sample-secret")]

def policyKey : String := "8a88e3dd7409f195fd52db2d3cba5d72ca6709bf1d94121bf3748801b40f6f5c"

def cappedPolicy : Policy where
  orderCaps := some [{ symbol := "BTCUSDT", maxQty := "0.5", maxNotional := some "40000" }]

def cappedPolicyText (members : String) : String :=
  "\x7b\"order_caps\":[\x7b\"symbol\":\"BTCUSDT\",\"max_qty\":\"0.5\"," ++
    "\"max_notional\":\"40000\"\x7d]" ++ members ++ "\x7d"

def wrappedText (policyText : String) : String :=
  "\x7b\"policy\":" ++ policyText ++ ",\"secret\":\x7b\"key\":\"sample-key\"," ++
    "\"secret\":\"sample-secret\"\x7d\x7d"

def cappedBlob : Answers where
  plaintext := wrappedText (cappedPolicyText "")
  parsed := .withPolicy cappedPolicy hmacSecret
  policyText := cappedPolicyText ""

def limitOrder : SignRequest :=
  { request .signBinanceOrder with
    order := some { symbol := "BTCUSDT", side := "buy", qty := "0.25", ordType := "limit",
                    price := some "64000.5" } }

def limitOrderText : String :=
  "symbol=BTCUSDT&side=BUY&type=LIMIT&quantity=0.25&price=64000.5&timeInForce=GTC" ++
    "&timestamp=1700000000000&recvWindow=5000"

def bareBlob : Answers where
  plaintext := "\x7b\"key\":\"sample-key\",\"secret\":\"sample-secret\"\x7d"
  parsed := .legacy hmacSecret

/-! ### An agent's order -/

def agentPubkey : String := "8139770ea87d175f56a35466c34c7ecccb8d8a91b4ee37a25df60f5b8fc9b394"

def agentPolicy : Policy where
  orderCaps := some [{ symbol := "BTCUSDT", maxQty := "0.5" }]
  intentPubkey := some agentPubkey

def agentPolicyText : String :=
  "\x7b\"order_caps\":[\x7b\"symbol\":\"BTCUSDT\",\"max_qty\":\"0.5\"\x7d],\"intent_pubkey\":\"" ++
    agentPubkey ++ "\"\x7d"

def agentSig : String :=
  "3f3ef60228e1f9b888fa059b4a8f358bb8716da33989e5e2d07260a10534fd57" ++
    "326ceed0be8713a2e007ad7c964f2978b759921ae9e92832ecfac07b8ccbe70a"

def agentOrder : SignRequest :=
  { request .signBinanceOrder with
    order := some { symbol := "BTCUSDT", side := "buy", qty := "0.25", ordType := "limit",
                    price := some "64000.5", clientOrderId := some "coid-1" }
    intentSignature := some agentSig }

def agentOrderText : String :=
  "symbol=BTCUSDT&side=BUY&type=LIMIT&quantity=0.25&price=64000.5&timeInForce=GTC" ++
    "&newClientOrderId=coid-1&timestamp=1700000000000&recvWindow=5000"

def agentIntentMsg : Bytes :=
  buildAgentIntentMsgOrder customer "binance" .signBinanceOrder 1700000000000 "coid-1"
    { symbol := "BTCUSDT", side := "buy", qty := "0.25", ordType := "limit",
      price := some "64000.5", clientOrderId := some "coid-1" }

def agentBlob : Answers where
  plaintext := wrappedText agentPolicyText
  parsed := .withPolicy agentPolicy hmacSecret
  policyText := agentPolicyText
  verifies key message sig :=
    hexDecode agentPubkey = some key ∧ message = agentIntentMsg ∧
      hexDecode agentSig = some sig
  frame := requestFrame .signBinanceOrder
    ("\"order\":\x7b\"symbol\":\"BTCUSDT\",\"side\":\"buy\"," ++
    "\"qty\":\"0.25\",\"ord_type\":\"limit\",\"price\":\"64000.5\",\"client_order_id\":\"coid-1\"\x7d," ++
    "\"intent_signature\":\"" ++ agentSig ++ "\"")
  request := some agentOrder

/-! ### A trader's key -/

def traderKey : String := "0x2222222222222222222222222222222222222222222222222222222222222222"

def traderWallet : String := "0x1563915e194d8cfba1943570603f7606a3115508"

def traderPoint : Bytes :=
  beBytes 32 0x466d7fcae563e5cb09a0d1870bb580344804617879a14949cf22285f1bae3f27 ++
    beBytes 32 0x6728176c3c6431f8eeda4538dc37c865e2784f3a9e77d044f33e407797e1278a

/-- A blob with the key of the trader. In its secret the address is under `member`. -/
def traderAnswers (policy : Policy) (policyText member : String) : Answers where
  plaintext := "\x7b\"policy\":" ++ policyText ++ ",\"secret\":\x7b\"private_key\":\"" ++ traderKey ++
    "\",\"" ++ member ++ "\":\"" ++ traderWallet ++ "\"\x7d\x7d"
  parsed := .withPolicy policy (.object
    [("private_key", .string traderKey), (member, .string traderWallet)])
  policyText := policyText
  publicKey := 4 :: traderPoint
  keccak := [(traderPoint,
    beBytes 32 0x85b1f044bab6d30f3a19c1501563915e194d8cfba1943570603f7606a3115508)]
  signature := some (List.replicate 64 1, 0)

/-! ### Digests without a collision -/

def digests (table : List (Bytes × Bytes)) (b : Bytes) : Bytes := (table.lookup b).getD (0 :: b)

theorem mem_of_lookup {table : List (Bytes × Bytes)} {b d : Bytes} (h : table.lookup b = some d) :
    (b, d) ∈ table := by
  obtain ⟨before, after, rfl, -⟩ := List.lookup_eq_some_iff.mp h
  simp

theorem digests_injective {table : List (Bytes × Bytes)}
    (hstart : ∀ entry ∈ table, entry.2.head? ≠ some 0) (hnodup : (table.map Prod.snd).Nodup) :
    Function.Injective (digests table) := by
  intro a b h
  unfold digests at h
  cases ha : table.lookup a with
  | none =>
    cases hb : table.lookup b with
    | none => simpa [ha, hb] using h
    | some d =>
      rw [ha, hb, Option.getD_none, Option.getD_some] at h
      exact absurd (by rw [← h]; rfl) (hstart _ (mem_of_lookup hb))
  | some c =>
    cases hb : table.lookup b with
    | none =>
      rw [ha, hb, Option.getD_none, Option.getD_some] at h
      exact absurd (by rw [h]; rfl) (hstart _ (mem_of_lookup ha))
    | some d =>
      rw [ha, hb, Option.getD_some, Option.getD_some] at h
      exact congrArg Prod.fst (List.inj_on_of_nodup_map hnodup (mem_of_lookup ha)
        (mem_of_lookup hb) h)

theorem requestFromSlice_eq_some {a : Answers} {b : Bytes} {req : SignRequest}
    (h : (env a).requestFromSlice b = some req) : b = bytes a.frame ∧ a.request = some req :=
  Option.ite_none_right_eq_some.mp h

theorem mem_serverSteps_frame (env : Env) (frame : String) (s : Enclave) {req : SignRequest}
    (hlen : (bytes frame).length ∈ Set.Icc 1 maxMessageBytes)
    (hreq : env.requestFromSlice (bytes frame) = some req) :
    ⟨connection frame, s, .served req (handle env {} req s).1, (handle env {} req s).2⟩ ∈
      serverSteps env s [connection frame] := by
  have hserved : handleConnection env (connection frame) s =
      (.served req (handle env {} req s).1, (handle env {} req s).2) := by
    have hframe : readFrame (connection frame).stream = .ok (bytes frame) :=
      readFrame_lengthPrefixed (List.ne_nil_of_length_pos hlen.1) hlen.2
    simp only [handleConnection, hframe, hreq]
    simp [connection]
  simp [serverSteps, Run.steps, hserved]

theorem mem_serverSteps (a : Answers) (s : Enclave) {req : SignRequest}
    (hlen : (bytes a.frame).length ∈ Set.Icc 1 maxMessageBytes) (hreq : a.request = some req) :
    ⟨connection a.frame, s, .served req (handle (env a) {} req s).1, (handle (env a) {} req s).2⟩ ∈
      serverSteps (env a) s [connection a.frame] :=
  mem_serverSteps_frame _ _ s hlen (by simp [env, hreq])

end Signer.Sample
