import Signer.LoadHistory
import Signer.PolicyBinding

/-!
# Keys minted for agents

`handle_provision_agent_key` seals a key under a policy and first repeats checks that loading the
key will make. A minted envelope is followed here from the mint to a later load, in any state the
enclave reaches.
-/

namespace Signer

open Text Proc

variable {venue : String} {value : Json}

/-! ### What the linked code does -/

def agentSecretJson (venue privHex address : String) : Json :=
  .object [("exchange", .string venue), ("private_key", .string ("0x" ++ privHex)),
    ("wallet_address", .string address)]

def policyMemberText (policyRaw : String) : String := "\x7b\"policy\":" ++ policyRaw ++ "\x7d"

/-- What a mint rests on: KMS, AES-GCM, Base64 and the serializers undo what they did. -/
structure MintLaws (env : Env) : Prop where
  kms : ∀ {creds keyId dek ctx wrapped}, env.kmsEncrypt creds keyId dek ctx = .ok wrapped →
    ∀ creds', env.kmsDecrypt creds' wrapped ctx = .ok dek
  aesGcm : ∀ {key nonce aad plaintext ciphertext},
    env.aesGcmEncrypt key nonce aad plaintext = some ciphertext →
      env.aesGcmDecrypt key nonce aad ciphertext = some plaintext
  aesGcm_length : ∀ {key nonce aad plaintext ciphertext},
    env.aesGcmEncrypt key nonce aad plaintext = some ciphertext →
      ciphertext.length = plaintext.length + 16
  base64Encode : ∀ b, env.base64Encode b = Text.base64Encode b
  base64Decode : ∀ b, env.base64Decode (Text.base64Encode b) = some b
  keccak256_length : ∀ b, (env.keccak256 b).length = 32
  sha256_injective : Function.Injective env.sha256
  envelope_write : ∀ e : Envelope, env.jsonToVec e.toJson = compactBytes e.toJson
  envelope_value : ∀ {e : Envelope} {b}, compactBytes e.toJson = some b →
    env.jsonFromSlice b = some e.toJson
  envelope_read : ∀ {e : Envelope} {b}, compactBytes e.toJson = some b →
    env.envelopeFromSlice b = some e
  policy_write : ∀ policy : Policy, (env.jsonToVec policy.toJson).isSome = true
  plaintext_read : ∀ {policyRaw policy}, env.policyFromStr policyRaw = some policy →
    ∀ {venue}, isAgentKeyVenue venue = true → ∀ key address : Bytes,
      let secret := agentSecretJson venue (hexEncode key) ("0x" ++ hexEncode address)
      let plaintext := buildAgentKeyPlaintext policyRaw venue (hexEncode key)
        ("0x" ++ hexEncode address)
      (∃ value,
        env.jsonFromSlice (bytes (policyMemberText policyRaw)) =
          some (.object [("policy", value)]) ∧
        env.jsonFromSlice plaintext = some (.object [("policy", value), ("secret", secret)]) ∧
        env.wrappedFromValue (.object [("policy", value), ("secret", secret)]) =
          some (policy, secret)) ∨
      env.jsonFromSlice (bytes (policyMemberText policyRaw)) = none ∧
        env.jsonFromSlice plaintext = none

/-! ### Sizes -/

theorem jsonPlain_base64Encode (b : Bytes) : JsonPlain (base64Encode b) := by
  rw [JsonPlain, base64Encode, String.toList_ofList]
  exact forall_mem_base64Chars (by decide) (by decide) b

theorem compactBytes_envelope {e : Envelope} (hversion : e.version = envelopeVersion)
    (hwrapped : JsonPlain e.wrappedDek) (hnonce : JsonPlain e.nonce)
    (hciphertext : JsonPlain e.ciphertext) : compactBytes e.toJson = some (envelopeText e) := by
  have htext : compactText e.toJson = some ("\x7b\"version\":2,\"wrapped_dek\":\"" ++
      e.wrappedDek ++ "\",\"nonce\":\"" ++ e.nonce ++ "\",\"ciphertext\":\"" ++ e.ciphertext ++
      "\"\x7d").toList := by
    simp only [Envelope.toJson, Policy.unsigned, compactText, compactMembers, hversion,
      jcsString_of_jsonPlain hwrapped, jcsString_of_jsonPlain hnonce,
      jcsString_of_jsonPlain hciphertext, Option.bind_eq_bind, Option.bind_some, Option.pure_def,
      String.toList_append]
    have hversion : jcsString "version" = "\"version\"".toList := by decide
    have hwrapped : jcsString "wrapped_dek" = "\"wrapped_dek\"".toList := by decide
    have hnonce : jcsString "nonce" = "\"nonce\"".toList := by decide
    have hciphertext : jcsString "ciphertext" = "\"ciphertext\"".toList := by decide
    have htwo : envelopeVersion.toNat.repr.toList = ['2'] := by decide +kernel
    simp [hversion, hwrapped, hnonce, hciphertext, htwo]
  rw [compactBytes, htext, Option.map_some, String.ofList_toList, envelopeText]

theorem compactBytes_sealedEnvelope (wrapped nonce ciphertext : Bytes) :
    compactBytes (sealedEnvelope wrapped nonce ciphertext).toJson =
      some (envelopeText (sealedEnvelope wrapped nonce ciphertext)) :=
  compactBytes_envelope rfl (jsonPlain_base64Encode _) (jsonPlain_base64Encode _)
    (jsonPlain_base64Encode _)

def agentPlaintextSize (policyRaw venue : String) : Nat :=
  181 + policyRaw.utf8ByteSize + venue.utf8ByteSize

def agentEnvelopeSize (policyRaw venue : String) (wrappedLength : Nat) : Nat :=
  base64Length (73 + base64Length wrappedLength +
    base64Length (agentPlaintextSize policyRaw venue + 16))

theorem length_buildAgentKeyPlaintext (policyRaw venue : String) {key address : Bytes}
    (hkey : key.length = 32) (haddress : address.length = 20) :
    (buildAgentKeyPlaintext policyRaw venue (hexEncode key)
      ("0x" ++ hexEncode address)).length = agentPlaintextSize policyRaw venue := by
  have hpolicy : ("\x7b\"policy\":").utf8ByteSize = 10 := by decide
  have hsecret : (",\"secret\":\x7b\"exchange\":\"").utf8ByteSize = 23 := by decide
  have hprivate : ("\",\"private_key\":\"0x").utf8ByteSize = 19 := by decide
  have hwallet : ("\",\"wallet_address\":\"").utf8ByteSize = 20 := by decide
  have hend : ("\"\x7d\x7d").utf8ByteSize = 3 := by decide
  have hzero : ("0x").utf8ByteSize = 2 := by decide
  simp only [buildAgentKeyPlaintext, length_bytes, String.utf8ByteSize_append,
    utf8ByteSize_hexEncode, hkey, haddress, hpolicy, hsecret, hprivate, hwallet, hend, hzero,
    agentPlaintextSize]
  omega

/-! ### The mint -/

/-- A mint: what was asked for, and what KMS returned. -/
structure AgentMint where
  creds : AwsCredentials
  keyId : String
  venue : String
  customerId : String
  policyRaw : String
  policy : Policy
  wrapped : Bytes

namespace AgentMint

def context (m : AgentMint) : EncryptionContext :=
  { customerId := m.customerId, venueId := m.venue }

/-- The request asks for this mint, and KMS wraps its data key. -/
structure Asked (m : AgentMint) (env : Env) (amb : Ambient) (req : SignRequest) : Prop where
  creds : req.awsCredentials = some m.creds
  keyId : req.keyId = some m.keyId
  venue : req.provisionVenue = some m.venue
  customerId : req.provisionCustomerId = some m.customerId
  policyRaw : req.provisionPolicy = some m.policyRaw
  policy : env.policyFromStr m.policyRaw = some m.policy
  wrapped : env.kmsEncrypt m.creds m.keyId amb.mintedDek m.context = .ok m.wrapped

def aad (m : AgentMint) : Bytes :=
  (ResolvedIdentity.forProvisionedAgent m.customerId m.venue).sealedAad m.venue keyVersion

def plaintext (m : AgentMint) (amb : Ambient) (address : Bytes) : Bytes :=
  buildAgentKeyPlaintext m.policyRaw m.venue (hexEncode amb.mintedKey)
    ("0x" ++ hexEncode address)

structure Minted (m : AgentMint) (env : Env) (amb : Ambient) (resp : SignResponse)
    (address ciphertext : Bytes) : Prop where
  venue : isAgentKeyVenue m.venue = true
  customer : isSafeId m.customerId = true
  floor : mintFloor env m.policy m.customerId m.venue = .ok ()
  key : amb.mintedKey.length = 32
  dek : amb.mintedDek.length = 32
  address_length : address.length = 20
  sealed : env.aesGcmEncrypt amb.mintedDek amb.sealNonce m.aad (m.plaintext amb address) =
    some ciphertext
  envelope : resp.provision.map ProvisionDataKeyResponse.envelopeB64 = some (base64Encode
    (envelopeText (sealedEnvelope m.wrapped amb.sealNonce ciphertext)))

end AgentMint

theorem attestedDataPubkey_address {env : Env} (laws : MintLaws env) {key : Bytes}
    {pubkey : String × String} (h : attestedDataPubkey env key = some pubkey) :
    ∃ address, address.length = 20 ∧ pubkey.2 = "0x" ++ hexEncode address := by
  unfold attestedDataPubkey deriveAddress at h
  split at h
  · cases h
  · dsimp only at h
    split at h
    · cases h
    · cases h
      exact ⟨_, by simp [laws.keccak256_length], rfl⟩

variable {req : SignRequest}

theorem AgentMint.Asked.unique {env : Env} {amb : Ambient} {m m' : AgentMint}
    (h : m.Asked env amb req) (h' : m'.Asked env amb req) : m = m' := by
  obtain ⟨creds, keyId, venue, customerId, policyRaw, policy, wrapped⟩ := m
  obtain ⟨creds', keyId', venue', customerId', policyRaw', policy', wrapped'⟩ := m'
  obtain rfl : creds = creds' := Option.mem_unique h.creds h'.creds
  obtain rfl : keyId = keyId' := Option.mem_unique h.keyId h'.keyId
  obtain rfl : venue = venue' := Option.mem_unique h.venue h'.venue
  obtain rfl : customerId = customerId' := Option.mem_unique h.customerId h'.customerId
  obtain rfl : policyRaw = policyRaw' := Option.mem_unique h.policyRaw h'.policyRaw
  obtain rfl : policy = policy' := Option.mem_unique h.policy h'.policy
  obtain rfl : wrapped = wrapped' := Except.ok.inj (h.wrapped.symm.trans h'.wrapped)
  rfl

variable {resp : SignResponse}

theorem returns_filled_bind {field : Option String} {f : String → Handler SignResponse}
    {s s' : Enclave} {t : List Event} :
    (filled field >>= f).Returns s resp s' t ↔
      ∃ value, (field = some value ∧ value ≠ "") ∧ (f value).Returns s resp s' t := by
  simp [filled, returns_ofOption_bind, Option.filter_eq_some_iff]

theorem handleProvisionAgentKey_returns {env : Env} {amb : Ambient}
    {s s' : Enclave} {t : List Event} (laws : MintLaws env)
    (h : (handleProvisionAgentKey env amb req).Returns s resp s' t) :
    ∃ m : AgentMint, ∃ address ciphertext, m.Asked env amb req ∧
      m.Minted env amb resp address ciphertext := by
  obtain ⟨creds, hcreds, h⟩ := returns_ofOption_bind.mp h
  obtain ⟨keyId, ⟨hkeyId, -⟩, h⟩ := returns_filled_bind.mp h
  obtain ⟨venue, ⟨hvenue, -⟩, h⟩ := returns_filled_bind.mp h
  obtain ⟨customerId, ⟨hcustomerId, -⟩, h⟩ := returns_filled_bind.mp h
  obtain ⟨policyRaw, ⟨hpolicyRaw, -⟩, h⟩ := returns_filled_bind.mp h
  obtain ⟨hmintable, h⟩ := returns_ensure_bind.mp h
  obtain ⟨hsafe, h⟩ := returns_ensure_bind.mp h
  obtain ⟨policy, hpolicy, h⟩ := returns_ofOption_bind.mp h
  obtain ⟨_, hfloor, h⟩ := returns_ofExcept_bind.mp h
  obtain ⟨pubkey, hpubkey, h⟩ := returns_ofOption_bind.mp h
  obtain ⟨hkey, h⟩ := returns_ensure_bind.mp h
  obtain ⟨wrapped, hwrapped, h⟩ := returns_ofExcept_bind.mp h
  obtain ⟨envelope, henvelope, h⟩ := returns_ofOption_bind.mp h
  obtain ⟨blob, hblob, h⟩ := returns_ofOption_bind.mp h
  obtain ⟨rfl, -, -⟩ := returns_pure.mp h
  obtain ⟨address, haddress, hhex⟩ := attestedDataPubkey_address laws hpubkey
  unfold sealWithDek at henvelope
  split at henvelope
  · cases henvelope
  rename_i hdek
  obtain ⟨ciphertext, hciphertext, rfl⟩ := Option.map_eq_some_iff.mp henvelope
  rw [laws.envelope_write] at hblob
  simp only [laws.base64Encode] at hblob ⊢
  obtain rfl := Option.some.inj
    (hblob.symm.trans (compactBytes_sealedEnvelope wrapped amb.sealNonce ciphertext))
  rw [hhex] at hciphertext
  exact ⟨{ creds, keyId, venue, customerId, policyRaw, policy, wrapped }, address, ciphertext,
    ⟨hcreds, hkeyId, hvenue, hcustomerId, hpolicyRaw, hpolicy, mapError_eq_ok.mp hwrapped⟩,
    ⟨hmintable, hsafe, hfloor, hkey, not_not.mp hdek, haddress, hciphertext, rfl⟩⟩

/-! ### Loading what was minted -/

/-- A later request presents the minted envelope for its own customer and venue, unpinned so far. -/
structure AgentMint.Presented (m : AgentMint) (resp : SignResponse) (req : SignRequest)
    (identity : ResolvedIdentity) (pins : PinStore) : Prop where
  venue : venueForAction req.action = some m.venue
  customer : identity.customerId = m.customerId
  granted : identity.venueAllowed m.venue = true
  envelope : req.ciphertextBlobBase64 = resp.provision.map ProvisionDataKeyResponse.envelopeB64
  unpinned : tofuKey m.customerId m.venue ∉ pins

section

variable {env : Env} {amb₀ amb : Ambient} {m : AgentMint} {resp : SignResponse}
  {address ciphertext : Bytes} {s : Enclave} {req₀ : SignRequest}

theorem isSafeId_of_isAgentKeyVenue (h : isAgentKeyVenue venue = true) :
    isSafeId venue = true := by
  simp only [isAgentKeyVenue, List.mem_cons, List.not_mem_nil, or_false, decide_eq_true_eq] at h
  rcases h with rfl | rfl <;> decide

theorem MintLaws.reads (laws : MintLaws env) (wrapped nonce ciphertext : Bytes) :
    ReadsEnvelope env (sealedEnvelope wrapped nonce ciphertext) where
  base64Decode := laws.base64Decode
  value := laws.envelope_value (compactBytes_sealedEnvelope _ _ _)
  read := laws.envelope_read (compactBytes_sealedEnvelope _ _ _)

variable (laws : MintLaws env) (hminted : m.Minted env amb₀ resp address ciphertext)

include laws hminted

theorem openEnvelope_minted
    (hwrapped : env.kmsEncrypt m.creds m.keyId amb₀.mintedDek m.context = .ok m.wrapped)
    (hnonce : amb₀.sealNonce.length = 12) (hlength : m.wrapped.length < 2 ^ 32)
    (hsound : s.dekCache.Sound env) (creds : AwsCredentials) :
    ∃ cache, (openEnvelope env amb creds
      (envelopeText (sealedEnvelope m.wrapped amb₀.sealNonce ciphertext))
      m.context m.aad).Returns s (m.plaintext amb₀ address)
      { s with dekCache := cache } [] := by
  have hdecrypt : decryptWithDek env amb₀.mintedDek
      (sealedEnvelope m.wrapped amb₀.sealNonce ciphertext) m.aad =
        some (m.plaintext amb₀ address) := by
    simp [decryptWithDek, sealedEnvelope, hminted.dek, laws.base64Decode, hnonce,
      laws.aesGcm hminted.sealed]
  have hreads := laws.reads m.wrapped amb₀.sealNonce ciphertext
  have hkms := laws.kms hwrapped
  cases hget : (s.dekCache.get env amb.cacheGetNow (deriveKey env m.wrapped m.context)).1 with
  | some dek =>
    obtain ⟨creds', hcached⟩ := hsound.kmsDecrypt_of_get laws.sha256_injective hlength
      hminted.customer (isSafeId_of_isAgentKeyVenue hminted.venue) hget
    obtain rfl : dek = amb₀.mintedDek := Except.ok.inj (hcached.symm.trans (hkms creds'))
    exact ⟨_, hreads.run_openEnvelope_of_hit hdecrypt hget⟩
  | none => exact ⟨_, hreads.run_openEnvelope_of_miss hdecrypt hget (hkms creds)⟩

variable {req : SignRequest} {identity : ResolvedIdentity} {pins : PinStore}

theorem loadSecretFor_minted
    (hwrapped : env.kmsEncrypt m.creds m.keyId amb₀.mintedDek m.context = .ok m.wrapped)
    (hnonce : amb₀.sealNonce.length = 12) (hsound : s.dekCache.Sound env)
    (hlater : m.Presented resp req identity pins) {plaintext : Bytes} :
    (∃ cache, (loadSecretFor env amb req identity m.venue).Returns s plaintext
        { s with dekCache := cache } []) ↔
      req.awsCredentials.isSome = true ∧
        agentEnvelopeSize m.policyRaw m.venue m.wrapped.length ≤ maxCiphertextBytes ∧
        plaintext = m.plaintext amb₀ address := by
  have hblob := hlater.envelope.trans hminted.envelope
  have hciphertext : ciphertext.length = agentPlaintextSize m.policyRaw m.venue + 16 := by
    rw [laws.aesGcm_length hminted.sealed, AgentMint.plaintext,
      length_buildAgentKeyPlaintext _ _ hminted.key hminted.address_length]
  have hctx : identity.encryptionContext m.venue = m.context := by
    simp [ResolvedIdentity.encryptionContext, AgentMint.context, hlater.customer]
  have haad : identity.sealedAad m.venue keyVersion = m.aad := by
    simp [ResolvedIdentity.sealedAad, AgentMint.aad, ResolvedIdentity.forProvisionedAgent,
      hlater.customer]
  -- A wrapped key that fits in a blob is short enough for the cache.
  have hshort : agentEnvelopeSize m.policyRaw m.venue m.wrapped.length ≤ maxCiphertextBytes →
      m.wrapped.length < 2 ^ 32 := by
    simp only [agentEnvelopeSize, base64Length, maxCiphertextBytes]
    omega
  cases hcreds : req.awsCredentials with
  | none => simp [loadSecretFor, hcreds]
  | some creds =>
    rw [(laws.reads _ _ _).loadSecretFor_eq hcreds hblob hnonce, hctx, haad, hciphertext,
      ← agentEnvelopeSize]
    simp only [returns_ensure_bind, Option.isSome_some, true_and]
    constructor
    · rintro ⟨cache, hmax, h⟩
      obtain ⟨cache', hopen⟩ := openEnvelope_minted laws hminted hwrapped hnonce (hshort hmax) hsound
        creds
      exact ⟨hmax, (h.unique hopen).1⟩
    · rintro ⟨hmax, rfl⟩
      obtain ⟨cache, hopen⟩ := openEnvelope_minted laws hminted hwrapped hnonce (hshort hmax) hsound
        creds
      exact ⟨cache, hmax, hopen⟩

def AgentMint.secretJson (m : AgentMint) (amb : Ambient) (address : Bytes) : Json :=
  agentSecretJson m.venue (hexEncode amb.mintedKey) ("0x" ++ hexEncode address)

theorem parseBlob_minted (hpolicy : env.policyFromStr m.policyRaw = some m.policy)
    {parsed : ParsedBlob} :
    parseBlob env (m.plaintext amb₀ address) = some parsed ↔
      (env.jsonFromSlice (bytes (policyMemberText m.policyRaw))).isSome = true ∧
        parsed = .withPolicy m.policy (m.secretJson amb₀ address) := by
  rcases laws.plaintext_read hpolicy hminted.venue amb₀.mintedKey address with
    ⟨value, hmember, hvalue, hread⟩ | ⟨hmember, hvalue⟩
  · simp only [parseBlob, AgentMint.plaintext, AgentMint.secretJson, hmember, hvalue, Json.get,
      List.lookup_cons_self, hread, Option.bind_eq_bind, Option.bind_some, Option.isSome_some,
      if_true, Option.map_some, Option.some.injEq, true_and]
    exact eq_comm
  · simp [parseBlob, AgentMint.plaintext, hmember, hvalue]

def TofuFieldsUsable (env : Env) (policy : Policy) (pins : PinStore) : Prop :=
  match policy.signerPubkey, policy.policySignature with
  | none, none => True
  | some pkHex, some sigHex => (∃ canonical pk, canonicalPolicySignable env policy =
      some canonical ∧
      PinStore.verify env canonical pkHex sigHex = .ok pk) ∧ pins.entries.length < maxPins
  | _, _ => False

omit laws hminted in
theorem isMoneyVenue_of_isAgentKeyVenue (h : isAgentKeyVenue venue = true) :
    isMoneyVenue venue = true := by
  simp only [isAgentKeyVenue, List.mem_cons, List.not_mem_nil, or_false, decide_eq_true_eq] at h
  rcases h with rfl | rfl <;> decide

omit laws in
theorem policyAdmissible_minted (hunpinned : tofuKey m.customerId m.venue ∉ pins) :
    PolicyAdmissible env m.customerId m.venue m.policy pins ↔
      (blobFloorStrict (policyRequired env) m.venue = false →
        TofuFieldsUsable env m.policy pins) := by
  have hmoney := isMoneyVenue_of_isAgentKeyVenue hminted.venue
  have hlookup : pins.lookup (tofuKey m.customerId m.venue) = none :=
    AList.lookup_eq_none.mpr hunpinned
  have hfloor := hminted.floor
  cases hstrict : blobFloorStrict (policyRequired env) m.venue with
  | true =>
    simp only [mintFloor, hstrict, hmoney, Bool.and_self, if_true] at hfloor
    have hadmit : admitStrict env m.policy m.customerId m.venue = .ok () := by
      split at hfloor
      · cases hfloor
      · split at hfloor
        · assumption
        · cases hfloor
        · cases hfloor
    have hblob : (admitBlob env m.customerId m.venue (.withPolicy m.policy .null) pins).1 =
        .ok () := by
      simp [admitBlob, hstrict, hmoney, hadmit]
    simpa using admitBlob_withPolicy_iff.mp hblob
  | false =>
    simp only [PolicyAdmissible, hstrict, hmoney, TofuFieldsUsable, Bool.false_and,
      Bool.false_eq_true, if_false, forall_const]
    cases m.policy.signerPubkey <;> cases m.policy.policySignature
    · simp [hunpinned]
    · simp
    · simp
    · simp only [hlookup, hunpinned, not_false_eq_true, true_and, reduceCtorEq, false_or,
        ← and_assoc, exists_and_right]

theorem loadAndParseBlob_minted (hm : m.Asked env amb₀ req₀)
    (hnonce : amb₀.sealNonce.length = 12) (hsound : s.dekCache.Sound env)
    (hlater : m.Presented resp req identity s.pins) :
    (∃ secret s' t, (loadAndParseBlob env amb req identity).Returns s
      (some m.policy, secret) s' t) ↔
      req.awsCredentials.isSome = true ∧
        agentEnvelopeSize m.policyRaw m.venue m.wrapped.length ≤ maxCiphertextBytes ∧
        (env.jsonFromSlice (bytes (policyMemberText m.policyRaw))).isSome = true ∧
        PolicyAdmissible env m.customerId m.venue m.policy s.pins := by
  constructor
  · rintro ⟨secret, s', t, h⟩
    obtain ⟨venue, plaintext, parsed, cache, pins, hvenue, -, hload, hparse, hadmit, -, -, -⟩ :=
      loadAndParseBlob_returns.mp h
    obtain rfl : venue = m.venue := Option.mem_unique hvenue hlater.venue
    obtain ⟨hcreds, hsize, rfl⟩ :=
      (loadSecretFor_minted laws hminted hm.wrapped hnonce hsound hlater).mp ⟨cache, hload⟩
    obtain ⟨hreads, rfl⟩ := (parseBlob_minted laws hminted hm.policy).mp hparse
    rw [hlater.customer] at hadmit
    exact ⟨hcreds, hsize, hreads, admitBlob_withPolicy_iff.mp (congrArg Prod.fst hadmit)⟩
  · rintro ⟨hcreds, hsize, hreads, hadmit⟩
    obtain ⟨cache, hload⟩ :=
      (loadSecretFor_minted laws hminted hm.wrapped hnonce hsound hlater).mpr ⟨hcreds, hsize, rfl⟩
    have hparse := (parseBlob_minted laws hminted hm.policy).mpr ⟨hreads, rfl⟩
    refine ⟨_, _, _, loadAndParseBlob_returns.mpr ⟨m.venue, _, _, cache, _, hlater.venue,
      hlater.granted, hload, hparse, Prod.ext ?_ rfl, rfl, rfl, rfl⟩⟩
    rw [hlater.customer]
    exact admitBlob_withPolicy_iff.mpr hadmit

/-! ### The rules of the policy -/

omit laws in
theorem intentPubkey_minted :
    m.policy.intentPubkey = none := by
  have hfloor := hminted.floor
  unfold mintFloor at hfloor
  split at hfloor
  · cases hfloor
  rename_i hshape
  by_contra hsome
  exact hshape ⟨Option.isSome_iff_ne_none.mpr hsome, hminted.venue⟩

omit laws hminted in
theorem exists_action_of_isAgentKeyVenue (h : isAgentKeyVenue venue = true) :
    ∃ action, venueForAction action = some venue := by
  simp only [isAgentKeyVenue, List.mem_cons, List.not_mem_nil, or_false, decide_eq_true_eq] at h
  rcases h with rfl | rfl
  · exact ⟨.signHyperliquidMainOrder, rfl⟩
  · exact ⟨.signHyperliquidTestnetOrder, rfl⟩

theorem exists_enforcePolicy_ok_iff :
    (∃ r hash, venueForAction r.action = some m.venue ∧
        enforcePolicy env (some m.policy) r = .ok hash) ↔
      (∀ allowed, m.policy.allowedActions = some allowed →
        ∃ action, venueForAction action = some m.venue ∧ action.name ∈ allowed) ∧
      (∀ label, m.policy.label = some label → label.length ≤ 128) ∧
      m.policy.maxRequestsPerMinute = none := by
  simp only [enforcePolicy_some_ok_iff]
  constructor
  · rintro ⟨r, hash, hvenue, hpass, -, -⟩
    exact ⟨fun allowed h => ⟨r.action, hvenue, hpass.action_allowed allowed h⟩, hpass.label_short,
      hpass.no_rate_clause⟩
  · rintro ⟨hactions, hlabel, hrate⟩
    have hintent := intentPubkey_minted hminted
    obtain ⟨action, hvenue, hlisted⟩ : ∃ action, venueForAction action = some m.venue ∧
        ∀ allowed, m.policy.allowedActions = some allowed → action.name ∈ allowed := by
      cases hallowed : m.policy.allowedActions with
      | none =>
        obtain ⟨action, hvenue⟩ := exists_action_of_isAgentKeyVenue hminted.venue
        exact ⟨action, hvenue, by simp⟩
      | some allowed =>
        obtain ⟨action, hvenue, hlisted⟩ := hactions allowed hallowed
        exact ⟨action, hvenue, by simpa using hlisted⟩
    have hhash : (computePolicyHash env m.policy).isSome = true := by
      rw [computePolicyHash, Option.isSome_map]
      exact laws.policy_write _
    refine ⟨{ action, protoVersion := 1 }, _, hvenue, ⟨?_, hlisted, ?_, ?_, ?_, ?_, hlabel, hrate⟩,
      hhash, rfl⟩
    · simp [hintent]
    · simp [hintent]
    · simp
    · simp
    · simp

end

/-! ### Whether a minted key can be used -/

/-- What the mint leaves unchecked and the later load needs. -/
structure AgentMint.Suffices (m : AgentMint) (env : Env) (req : SignRequest) (pins : PinStore) :
    Prop where
  credentials : req.awsCredentials.isSome = true
  size : agentEnvelopeSize m.policyRaw m.venue m.wrapped.length ≤ maxCiphertextBytes
  readable : (env.jsonFromSlice (bytes (policyMemberText m.policyRaw))).isSome = true
  tofu : blobFloorStrict (policyRequired env) m.venue = false → TofuFieldsUsable env m.policy pins
  actions : ∀ allowed, m.policy.allowedActions = some allowed →
    ∃ action, venueForAction action = some m.venue ∧ action.name ∈ allowed
  label : ∀ label, m.policy.label = some label → label.length ≤ 128
  rate : m.policy.maxRequestsPerMinute = none

/-- A minted key can be used exactly if what the mint leaves out holds: in every state the enclave
reaches, a request of the customer for the venue with the minted envelope loads it with the policy
of the mint, and that policy accepts some order or cancel request, if and only if the envelope is
short enough, the policy reads a second time, its TOFU fields can be honoured where they count, and
none of its rules refuses every request. -/
theorem minted_key_usable_iff {env : Env} (laws : MintLaws env) {amb₀ : Ambient}
    (hnonce : amb₀.sealNonce.length = 12) {req₀ : SignRequest} {s₀ s₁ : Enclave} {t₀ : List Event}
    (hmint : (handleProvisionAgentKey env amb₀ req₀).Returns s₀ resp s₁ t₀) {m : AgentMint}
    (hm : m.Asked env amb₀ req₀) {s : Enclave} (hs : Reachable env s) (amb : Ambient)
    {identity : ResolvedIdentity}
    (hlater : m.Presented resp req identity s.pins) :
    ((∃ secret s' t,
        (loadAndParseBlob env amb req identity).Returns s (some m.policy, secret) s' t) ∧
      ∃ r hash, venueForAction r.action = some m.venue ∧
        enforcePolicy env (some m.policy) r = .ok hash) ↔ m.Suffices env req s.pins := by
  obtain ⟨m', address, ciphertext, hm', hminted⟩ := handleProvisionAgentKey_returns laws hmint
  obtain rfl := hm.unique hm'
  rw [loadAndParseBlob_minted laws hminted hm hnonce hs.sound hlater,
    exists_enforcePolicy_ok_iff laws hminted, policyAdmissible_minted hminted hlater.unpinned]
  constructor
  · rintro ⟨⟨hcreds, hsize, hreads, htofu⟩, hactions, hlabel, hrate⟩
    exact ⟨hcreds, hsize, hreads, htofu, hactions, hlabel, hrate⟩
  · rintro ⟨hcreds, hsize, hreads, htofu, hactions, hlabel, hrate⟩
    exact ⟨⟨hcreds, hsize, hreads, htofu⟩, hactions, hlabel, hrate⟩

/-! ### A sample mint -/

theorem compactBytes_policyMember {policyRaw : String}
    (h : compactText value = some policyRaw.toList) :
    compactBytes (.object [("policy", value)]) =
      some (bytes (policyMemberText policyRaw)) := by
  have hname : jcsString "policy" = "\"policy\"".toList := by decide
  have htext : compactText (.object [("policy", value)]) =
      some ("\x7b\"policy\":" ++ policyRaw ++ "\x7d").toList := by
    simp [compactText, compactMembers, h, hname]
  rw [compactBytes, htext, Option.map_some, String.ofList_toList]
  rfl

theorem compactBytes_agentPlaintext {policyRaw privHex addressHex : String}
    (h : compactText value = some policyRaw.toList) (hvenue : JsonPlain venue)
    (hprivate : JsonPlain ("0x" ++ privHex)) (haddress : JsonPlain addressHex) :
    compactBytes (.object [("policy", value),
    ("secret", agentSecretJson venue privHex addressHex)]) =
      some (buildAgentKeyPlaintext policyRaw venue privHex addressHex) := by
  have hpolicy : jcsString "policy" = "\"policy\"".toList := by decide
  have hsecret : jcsString "secret" = "\"secret\"".toList := by decide
  have hexchange : jcsString "exchange" = "\"exchange\"".toList := by decide
  have hkey : jcsString "private_key" = "\"private_key\"".toList := by decide
  have hwallet : jcsString "wallet_address" = "\"wallet_address\"".toList := by decide
  have htext : compactText (.object [("policy", value),
      ("secret", agentSecretJson venue privHex addressHex)]) =
      some ("\x7b\"policy\":" ++ policyRaw ++ ",\"secret\":\x7b\"exchange\":\"" ++ venue ++
        "\",\"private_key\":\"0x" ++ privHex ++ "\",\"wallet_address\":\"" ++ addressHex ++
        "\"\x7d\x7d").toList := by
    simp only [agentSecretJson, compactText, compactMembers, h, jcsString_of_jsonPlain hvenue,
      jcsString_of_jsonPlain hprivate, jcsString_of_jsonPlain haddress, Option.bind_eq_bind,
      Option.bind_some, Option.pure_def, String.toList_append]
    simp [hpolicy, hsecret, hexchange, hkey, hwallet]
  rw [compactBytes, htext, Option.map_some, String.ofList_toList, buildAgentKeyPlaintext]

theorem jsonPlain_hexEncode (b : Bytes) : JsonPlain ("0x" ++ hexEncode b) := by
  intro c hc
  rw [String.toList_append, List.mem_append] at hc
  rcases hc with hc | hc
  · have hzero : JsonPlain "0x" := by decide +kernel
    exact hzero c hc
  · exact forall_mem_hexEncode (P := fun c => jcsChar c = [c]) (by decide) b c hc

namespace Sample

def mintAmbient : Ambient where
  mintedKey := List.replicate 32 0x11
  mintedDek := List.replicate 32 5
  sealNonce := List.replicate 12 6

def agentVenue : String := "hyperliquid_testnet"

def agentPublicKey : Bytes :=
  beBytes 32 0x4f355bdcb7cc0af728ef3cceb9615d90684bb5b2ca5f859ab0f0b704075871aa ++
    beBytes 32 0x385b6b1b8ead809ca67454d9683fcf2ba03456d6fe2c4abe2b07f0fbdbb2f1c1

def agentKeyDigest : Bytes :=
  beBytes 32 0x969b0a11b8a56bacf1ac18f219e7e376e7c213b7e7e7e46cc70a5dd086daff2a

def plainCapPolicy : Policy where
  hlOrderCaps := some [{ asset := 0, maxSize := "1" }]

def halfSignedPolicy : Policy :=
  { plainCapPolicy with signerPubkey := some (hexEncode (List.replicate 32 2)) }

def rateLimitedPolicy : Policy := { plainCapPolicy with maxRequestsPerMinute := some 60 }

def policyText (policy : Policy) : String := .ofList ((compactText policy.toJson).getD [])

def agentPlaintext (policy : Policy) : Bytes :=
  buildAgentKeyPlaintext (policyText policy) agentVenue (hexEncode mintAmbient.mintedKey)
    ("0x" ++ hexEncode (agentKeyDigest.drop 12))

/-- Stands for AES-GCM: the plaintext and a tag of 16 bytes. -/
def aesSeal (plaintext : Bytes) : Bytes := plaintext ++ List.replicate 16 0

def kmsTag (ctx : EncryptionContext) : Bytes :=
  bytes (ctx.customerId ++ "/" ++ ctx.venueId ++ ":")

def agentWrapped : Bytes :=
  kmsTag { customerId := customer, venueId := agentVenue } ++ mintAmbient.mintedDek

noncomputable def readCompact (b : Bytes) : Option Json :=
  open Classical in if h : ∃ value, compactBytes value = some b then some h.choose else none

theorem readCompact_eq_some {b : Bytes} (h : compactBytes value = some b) :
    readCompact b = some value := by
  have hexists : ∃ value, compactBytes value = some b := ⟨value, h⟩
  rw [readCompact, dif_pos hexists, compactBytes_inj hexists.choose_spec h]

def envelopeOf (value : Json) : Option Envelope := do
  let version ← (value.get "version").bind Json.asU64
  let wrappedDek ← (value.get "wrapped_dek").bind Json.asStr
  let nonce ← (value.get "nonce").bind Json.asStr
  let ciphertext ← (value.get "ciphertext").bind Json.asStr
  pure { version, wrappedDek, nonce, ciphertext }

def policyOf (text : List Char) : Option Policy :=
  [plainCapPolicy, halfSignedPolicy, rateLimitedPolicy].find? fun policy =>
    compactText policy.toJson = some text

noncomputable def mintEnv : Env :=
  { env bareBlob with
    dekCacheTtlSecs := 300
    dekCacheMax := 64
    sha256 := digests []
    keccak256 := fun b => if b = agentPublicKey then agentKeyDigest else List.replicate 32 0
    aesGcmEncrypt := fun _ _ _ plaintext => some (aesSeal plaintext)
    aesGcmDecrypt := fun _ _ _ ciphertext => some (ciphertext.take (ciphertext.length - 16))
    kmsEncrypt := fun _ _ dek ctx => .ok (kmsTag ctx ++ dek)
    kmsDecrypt := fun _ wrapped ctx =>
      if kmsTag ctx <+: wrapped then .ok (wrapped.drop
        (kmsTag ctx).length) else .error .accessDenied
    base64Encode := base64Encode
    base64Decode := base64Decode
    secp256k1PublicKey := fun _ => 4 :: agentPublicKey
    secp256k1PublicKeyCompressed := fun _ => 3 :: agentPublicKey.take 32
    jsonToVec := compactBytes
    jsonFromSlice := readCompact
    envelopeFromSlice := fun b => (readCompact b).bind envelopeOf
    policyFromStr := fun text => policyOf text.toList
    wrappedFromValue := fun value => do
      let text ← (value.get "policy").bind compactText
      let policy ← policyOf text
      let secret ← value.get "secret"
      pure (policy, secret) }

theorem compactText_of_policyOf {text : List Char} {policy : Policy}
    (h : policyOf text = some policy) :
    compactText policy.toJson = some text := by
  simpa using List.find?_some h

theorem envelopeOf_toJson (e : Envelope) : envelopeOf e.toJson = some e := by
  simp [envelopeOf, Envelope.toJson, Json.get, List.lookup_cons, Policy.unsigned, Json.asU64,
    Json.asStr]

theorem jsonPlain_of_isAgentKeyVenue (h : isAgentKeyVenue venue = true) :
    JsonPlain venue := by
  simp only [isAgentKeyVenue, List.mem_cons, List.not_mem_nil, or_false, decide_eq_true_eq] at h
  rcases h with rfl | rfl <;> decide +kernel

theorem mintEnv_laws : MintLaws mintEnv where
  kms := by
    intro creds keyId dek ctx wrapped h creds'
    cases h
    simp [mintEnv]
  aesGcm := by
    intro key nonce aad plaintext ciphertext h
    cases h
    simp [mintEnv, aesSeal]
  aesGcm_length := by
    intro key nonce aad plaintext ciphertext h
    cases h
    simp [aesSeal]
  base64Encode _ := rfl
  base64Decode := base64Decode_encode
  keccak256_length := by
    intro b
    by_cases hb : b = agentPublicKey
    · simp [mintEnv, hb, agentKeyDigest]
    · simp [mintEnv, hb]
  sha256_injective := @digests_injective [] (by simp) (by simp)
  envelope_write _ := rfl
  envelope_value := readCompact_eq_some
  envelope_read := by
    intro e b h
    simp [mintEnv, readCompact_eq_some h, envelopeOf_toJson]
  policy_write policy := by
    have htext := policy.hasText_toJson
    simpa [mintEnv, compactBytes, Json.HasText] using htext
  plaintext_read := by
    intro policyRaw policy hpolicy venue hvenue key address
    have htext : compactText policy.toJson = some policyRaw.toList :=
      compactText_of_policyOf hpolicy
    refine .inl ⟨policy.toJson, readCompact_eq_some (compactBytes_policyMember htext),
      readCompact_eq_some (compactBytes_agentPlaintext htext (jsonPlain_of_isAgentKeyVenue hvenue)
        (jsonPlain_hexEncode key) (jsonPlain_hexEncode address)), ?_⟩
    have hread : policyOf policyRaw.toList = some policy := hpolicy
    simp [mintEnv, Json.get, List.lookup_cons, htext, hread]

def mintRequest (policy : Policy) : SignRequest :=
  { request .provisionAgentKey with
    ciphertextBlobBase64 := none
    keyId := some "alias/sample"
    provisionVenue := some agentVenue
    provisionCustomerId := some customer
    provisionPolicy := some (policyText policy) }

def agentMint (policy : Policy) : AgentMint where
  creds := { accessKeyId := "id", secretAccessKey := "key", sessionToken := "token" }
  keyId := "alias/sample"
  venue := agentVenue
  customerId := customer
  policyRaw := policyText policy
  policy := policy
  wrapped := agentWrapped

def mintAnswer (policy : Policy) : SignResponse :=
  .okProvision
    { envelopeB64 := base64Encode (envelopeText (sealedEnvelope agentWrapped
        mintAmbient.sealNonce (aesSeal (agentPlaintext policy))))
      pubkeyCompressed := "0x" ++ hexEncode (3 :: agentPublicKey.take 32)
      pubkeyAddress := "0x" ++ hexEncode (agentKeyDigest.drop 12) }

def laterOrder (policy : Policy) : SignRequest :=
  { request .signHyperliquidTestnetOrder with
    ciphertextBlobBase64 :=
      (mintAnswer policy).provision.map ProvisionDataKeyResponse.envelopeB64 }

def agentIdentity : ResolvedIdentity := identity [agentVenue] .active

section

variable {policy : Policy} (hpolicy : policyOf (policyText policy).toList = some policy)

include hpolicy

theorem policyFromStr_policyText : mintEnv.policyFromStr (policyText policy) = some policy := by
  simp only [mintEnv, hpolicy]

theorem agentMint_asked : (agentMint policy).Asked mintEnv mintAmbient (mintRequest policy) :=
  ⟨rfl, rfl, rfl, rfl, rfl, policyFromStr_policyText hpolicy, rfl⟩

theorem mint_returns (htext : policyText policy ≠ "") (hintent : policy.intentPubkey = none)
    (s : Enclave) : (handleProvisionAgentKey mintEnv mintAmbient (mintRequest policy)).Returns s
      (mintAnswer policy) s [] := by
  have hvenue : agentVenue ≠ "" := by decide
  have hmintable : isAgentKeyVenue agentVenue = true := by decide
  have hsafe : isSafeId customer = true := by decide
  have hfloor : mintFloor mintEnv policy customer agentVenue = .ok () := by
    simp [mintFloor, hintent, policyRequired, mintEnv, env, bareBlob, blobFloorStrict,
      floorIsUnconditional, agentVenue]
  have hpubkey : attestedDataPubkey mintEnv mintAmbient.mintedKey =
      some ("0x" ++ hexEncode (3 :: agentPublicKey.take 32),
        "0x" ++ hexEncode (agentKeyDigest.drop 12)) := by
    simp [attestedDataPubkey, deriveAddress, mintEnv, env, agentPublicKey]
  have hseal : sealWithDek mintEnv mintAmbient mintAmbient.mintedDek agentWrapped
      (agentPlaintext policy)
      ((ResolvedIdentity.forProvisionedAgent customer agentVenue).sealedAad agentVenue keyVersion) =
      some (sealedEnvelope agentWrapped mintAmbient.sealNonce
        (aesSeal (agentPlaintext policy))) := by
    simp [sealWithDek, mintEnv, mintAmbient, sealedEnvelope]
  refine returns_ofOption_bind.mpr ⟨_, rfl, ?_⟩
  refine returns_filled_bind.mpr ⟨_, ⟨rfl, by decide⟩, ?_⟩
  refine returns_filled_bind.mpr ⟨agentVenue, ⟨rfl, hvenue⟩, ?_⟩
  refine returns_filled_bind.mpr ⟨customer, ⟨rfl, by decide⟩, ?_⟩
  refine returns_filled_bind.mpr ⟨policyText policy, ⟨rfl, htext⟩, ?_⟩
  refine returns_ensure_bind.mpr ⟨hmintable, returns_ensure_bind.mpr ⟨hsafe, ?_⟩⟩
  refine returns_ofOption_bind.mpr ⟨policy, policyFromStr_policyText hpolicy, ?_⟩
  refine returns_ofExcept_bind.mpr ⟨(), hfloor, ?_⟩
  refine returns_ofOption_bind.mpr ⟨_, hpubkey, ?_⟩
  refine returns_ensure_bind.mpr ⟨rfl, ?_⟩
  refine returns_ofExcept_bind.mpr ⟨agentWrapped, rfl, ?_⟩
  refine returns_ofOption_bind.mpr ⟨_, hseal, ?_⟩
  refine returns_ofOption_bind.mpr ⟨_, compactBytes_sealedEnvelope _ _ _, ?_⟩
  exact returns_pure.mpr ⟨rfl, rfl, rfl⟩

omit hpolicy in
theorem agentMint_presented : (agentMint policy).Presented (mintAnswer policy) (laterOrder policy)
    agentIdentity ({} : Enclave).pins :=
  ⟨rfl, rfl, (by decide : agentIdentity.venueAllowed agentVenue = true), rfl, AList.notMem_empty _⟩

end

end Sample

section

open Sample

/-- A key minted under order caps alone is loaded by a later order, and its policy accepts
orders. -/
theorem minted_key_usable_capped :
    (∃ secret s' t, (loadAndParseBlob mintEnv {}
      (laterOrder plainCapPolicy) agentIdentity).Returns {}
        (some plainCapPolicy, secret) s' t) ∧
      ∃ r hash, venueForAction r.action = some agentVenue ∧
        enforcePolicy mintEnv (some plainCapPolicy) r = .ok hash := by
  have hpolicy : policyOf (policyText plainCapPolicy).toList =
      some plainCapPolicy := by decide +kernel
  have hsize : agentEnvelopeSize (policyText plainCapPolicy) agentVenue agentWrapped.length ≤
      maxCiphertextBytes := by decide +kernel
  have hreads : (mintEnv.jsonFromSlice (bytes
      (policyMemberText (policyText plainCapPolicy)))).isSome = true :=
    Option.isSome_iff_exists.mpr ⟨_, readCompact_eq_some
      (compactBytes_policyMember (compactText_of_policyOf hpolicy))⟩
  refine (minted_key_usable_iff mintEnv_laws rfl
    (mint_returns hpolicy (by decide +kernel) rfl {}) (agentMint_asked hpolicy) (.inl rfl) {}
    agentMint_presented).mpr ⟨rfl, hsize, hreads, fun _ => trivial, ?_, ?_, rfl⟩
  · intro allowed h
    cases h
  · intro label h
    cases h

/-- Outside the strict floor a key is minted under a policy with a TOFU key and no signature, and
no later request loads it; and under a policy with a rate clause, which refuses every request. -/
theorem minted_key_unusable :
    MintLaws mintEnv ∧
      ((handleProvisionAgentKey mintEnv mintAmbient (mintRequest halfSignedPolicy)).Returns {}
          (mintAnswer halfSignedPolicy) {} [] ∧
        (agentMint halfSignedPolicy).Presented (mintAnswer halfSignedPolicy)
          (laterOrder halfSignedPolicy) agentIdentity ({} : Enclave).pins ∧
        ∀ secret s' t, ¬ (loadAndParseBlob mintEnv {} (laterOrder halfSignedPolicy)
          agentIdentity).Returns {} (some halfSignedPolicy, secret) s' t) ∧
      (handleProvisionAgentKey mintEnv mintAmbient (mintRequest rateLimitedPolicy)).Returns {}
          (mintAnswer rateLimitedPolicy) {} [] ∧
        ∀ r hash, venueForAction r.action = some agentVenue →
          enforcePolicy mintEnv (some rateLimitedPolicy) r ≠ .ok hash := by
  have hhalf : policyOf (policyText halfSignedPolicy).toList = some halfSignedPolicy := by
    decide +kernel
  have hrate : policyOf (policyText rateLimitedPolicy).toList = some rateLimitedPolicy := by
    decide +kernel
  have hmint := mint_returns hhalf (by decide +kernel) rfl {}
  refine ⟨mintEnv_laws, ⟨hmint, agentMint_presented, ?_⟩,
    mint_returns hrate (by decide +kernel) rfl {}, ?_⟩
  · intro secret s' t h
    obtain ⟨m, address, ciphertext, hm, hminted⟩ :=
      handleProvisionAgentKey_returns mintEnv_laws hmint
    obtain rfl := hm.unique (agentMint_asked hhalf)
    obtain ⟨-, -, -, hadmissible⟩ := (loadAndParseBlob_minted mintEnv_laws hminted hm rfl
      (DekCache.sound_empty mintEnv) agentMint_presented).mp ⟨secret, s', t, h⟩
    exact (policyAdmissible_minted hminted (AList.notMem_empty _)).mp hadmissible rfl
  · intro r hash _ h
    have hclause := (enforcePolicy_some_ok_iff.mp h).1.no_rate_clause
    cases hclause

end

end Signer
