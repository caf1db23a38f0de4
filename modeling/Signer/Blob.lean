import Signer.PolicyRules
import Signer.Text.Framing

/-!
# Loading a secret

A blob is decrypted under the context of the caller's own customer and venue, parsed,
and admitted. On a money venue under the strict floor the policy must carry the baked
authority's signature for this customer and venue and a binding cap. Elsewhere a policy
may be signed by a key that is pinned on first use.
-/

namespace Signer

open Text Proc

variable {I : Enclave → Prop} {venue : String}

inductive LoadSecretError where
  | badRequest
  | kmsDenied
  | internal
  | policyRequired
  deriving DecidableEq, Repr

def LoadSecretError.response : LoadSecretError → SignResponse
  | badRequest => .err .badRequest
  | kmsDenied => .err .kmsDecryptDenied
  | internal => .err .internalError
  | policyRequired => .err .policyRequired

abbrev Loader (α : Type) := Proc Enclave Event LoadSecretError α

def maxCiphertextBytes : Nat := 8 * 1024

def envelopeVersion : UInt64 := 2

def isEnvelope (env : Env) (blob : Bytes) : Bool :=
  (((env.jsonFromSlice blob).bind (Json.get "version")).bind Json.asU64).any
    fun v => envelopeVersion ≤ v

def parseEnvelope (env : Env) (blob : Bytes) : Option Envelope :=
  (env.envelopeFromSlice blob).filter fun e => e.version = envelopeVersion

def decryptWithDek (env : Env) (dek : Bytes) (envelope : Envelope) (aad : Bytes) : Option Bytes :=
  if dek.length ≠ 32 then none
  else do
    let nonce ← env.base64Decode envelope.nonce
    guard (nonce.length = 12)
    let ciphertext ← env.base64Decode envelope.ciphertext
    env.aesGcmDecrypt dek nonce aad ciphertext

def kmsDecrypt (env : Env) (creds : AwsCredentials) (ciphertext : Bytes)
    (ctx : EncryptionContext) : Except LoadSecretError Bytes :=
  match env.kmsDecrypt creds ciphertext ctx with
  | .ok plaintext => .ok plaintext
  | .error .accessDenied => .error .kmsDenied
  | .error .internal => .error .internal

/-- The envelope branch of `load_secret_for`: a cached data key is used without KMS, a
fresh one is cached after use. -/
def openEnvelope (env : Env) (amb : Ambient) (creds : AwsCredentials) (raw : Bytes)
    (ctx : EncryptionContext) (aad : Bytes) : Loader Bytes := do
  let envelope ← Proc.ofOption (parseEnvelope env raw) .badRequest
  let wrappedDek ← Proc.ofOption (env.base64Decode envelope.wrappedDek) .badRequest
  let key := deriveKey env wrappedDek ctx
  let cached ← Proc.update fun s =>
    let got := s.dekCache.get env amb.cacheGetNow key
    (.ok got.1, { s with dekCache := got.2 })
  match cached with
  | some dek => Proc.ofOption (decryptWithDek env dek envelope aad) .internal
  | none => do
    let dek ← Proc.ofExcept (kmsDecrypt env creds wrappedDek ctx)
    let plaintext ← Proc.ofOption (decryptWithDek env dek envelope aad) .internal
    Proc.update fun s =>
      (.ok (), { s with dekCache := s.dekCache.put env amb.cachePutNow key dek })
    pure plaintext

def loadSecretFor (env : Env) (amb : Ambient) (req : SignRequest) (identity : ResolvedIdentity)
    (venue : String) : Loader Bytes := do
  let creds ← Proc.ofOption req.awsCredentials .badRequest
  let ciphertextB64 ← Proc.ofOption req.ciphertextBlobBase64 .badRequest
  Proc.ensure (ciphertextB64 ≠ "" ∧ ciphertextB64.utf8ByteSize ≤ maxCiphertextBytes) .badRequest
  let raw ← Proc.ofOption (env.base64Decode ciphertextB64) .badRequest
  Proc.ensure (raw ≠ [] ∧ raw.length ≤ maxCiphertextBytes) .badRequest
  let ctx := identity.encryptionContext venue
  let aad := identity.sealedAad venue keyVersion
  if isEnvelope env raw then openEnvelope env amb creds raw ctx aad
  else Proc.ofExcept (kmsDecrypt env creds raw ctx)

def parseBlob (env : Env) (plaintext : Bytes) : Option ParsedBlob := do
  let value ← env.jsonFromSlice plaintext
  if (value.get "policy").isSome then
    (env.wrappedFromValue value).map fun w => .withPolicy w.1 w.2
  else pure (.legacy value)

/-- `parse_policy_authority_vk`, and what each failure becomes. -/
def policyAuthorityVk (env : Env) : Except LoadSecretError Bytes :=
  match env.policyPubkey.filter fun s => s ≠ "" with
  | none => .error .policyRequired
  | some hex =>
    match hexDecodeExact 32 hex with
    | none => .error .internal
    | some key => if env.ed25519KeyValid key then .ok key else .error .internal

def policyAuthorityDomain : Bytes := bytes "signer-policy-authority-v1" ++ [0]

def policyAuthorityMessage (customerId venue : String) (canonicalPolicy : Bytes) : Bytes :=
  policyAuthorityDomain ++ lengthPrefixed 4 (bytes customerId) ++
    lengthPrefixed 4 (bytes venue) ++ lengthPrefixed 4 canonicalPolicy

def verifyPolicyAuthority (env : Env) (policy : Policy) (customerId venue : String) :
    Except LoadSecretError Unit :=
  match policyAuthorityVk env with
  | .error e => .error e
  | .ok vk =>
    match policy.policyAuthoritySig with
    | none => .error .policyRequired
    | some sigHex =>
      match hexDecodeExact 64 sigHex with
      | none => .error .badRequest
      | some sig =>
        match canonicalPolicySignable env policy with
        | none => .error .internal
        | some canonical =>
          if env.ed25519Verify vk (policyAuthorityMessage customerId venue canonical) sig then .ok ()
          else .error .badRequest

def tofuKey (customerId venue : String) : String := customerId ++ "/" ++ venue

/-- The strict branch of `load_and_parse_blob` for a policy on a money venue. -/
def admitStrict (env : Env) (policy : Policy) (customerId venue : String) :
    Except LoadSecretError Unit :=
  match verifyPolicyAuthority env policy customerId venue with
  | .error e => .error e
  | .ok () =>
    if rot3UncappedMoneyKeyRejected true venue policy then .error .policyRequired else .ok ()

/-- The TOFU branch of `load_and_parse_blob` for a policy. -/
def admitTofu (env : Env) (policy : Policy) (key : String) (pins : PinStore) :
    Except LoadSecretError Unit × PinStore :=
  match policy.signerPubkey, policy.policySignature with
  | some pk, some sig =>
    match canonicalPolicySignable env policy with
    | none => (.error .badRequest, pins)
    | some canonical =>
      let pinned := pins.verifyAndPin env key canonical pk sig
      (pinned.1.mapError fun _ => .badRequest, pinned.2)
  | none, none => ((pins.requireIfPinned key).mapError fun _ => .badRequest, pins)
  | _, _ => (.error .badRequest, pins)

/-- How `load_and_parse_blob` admits a parsed blob for a customer and venue. -/
def admitBlob (env : Env) (customerId venue : String) (parsed : ParsedBlob) (pins : PinStore) :
    Except LoadSecretError Unit × PinStore :=
  let strict := blobFloorStrict (policyRequired env) venue
  match parsed with
  | .withPolicy policy _ =>
    if strict && isMoneyVenue venue then (admitStrict env policy customerId venue, pins)
    else admitTofu env policy (tofuKey customerId venue) pins
  | .legacy _ => (if strict then .error .policyRequired else .ok (), pins)

def loadAndParseBlob (env : Env) (amb : Ambient) (req : SignRequest)
    (identity : ResolvedIdentity) : Loader (Option Policy × Json) := do
  let venue ← Proc.ofOption (venueForAction req.action) .badRequest
  Proc.ensure (identity.venueAllowed venue) .badRequest
  let plaintext ← loadSecretFor env amb req identity venue
  let parsed ← Proc.ofOption (parseBlob env plaintext) .badRequest
  Proc.update fun s =>
    let admitted := admitBlob env identity.customerId venue parsed s.pins
    (admitted.1, { s with pins := admitted.2 })
  Proc.perform (.blobAccepted identity.customerId venue parsed.policy parsed.secretJson)
  pure (parsed.policy, parsed.secretJson)

def PolicyAdmissible (env : Env) (customerId venue : String) (policy : Policy) (pins : PinStore) :
    Prop :=
  if blobFloorStrict (policyRequired env) venue && isMoneyVenue venue then
    verifyPolicyAuthority env policy customerId venue = .ok () ∧
      rot3BindingCapPresent venue policy = true
  else
    match policy.signerPubkey, policy.policySignature with
    | some pkHex, some sigHex => ∃ canonical pk,
        canonicalPolicySignable env policy = some canonical ∧
        PinStore.verify env canonical pkHex sigHex = .ok pk ∧
        (pins.lookup (tofuKey customerId venue) = some pk ∨
          tofuKey customerId venue ∉ pins ∧ pins.entries.length < maxPins)
    | none, none => tofuKey customerId venue ∉ pins
    | _, _ => False

/-! ### What loading does -/

structure CacheInvariant (env : Env) (I : Enclave → Prop) : Prop where
  get : ∀ s now key, I s → I { s with dekCache := (s.dekCache.get env now key).2 }
  put : ∀ s now creds wrappedDek ctx dek, env.kmsDecrypt creds wrappedDek ctx = .ok dek → I s →
    I { s with dekCache := s.dekCache.put env now (deriveKey env wrappedDek ctx) dek }

/-- What a load may do to the state keeps `I`. -/
structure LoadInvariant (env : Env) (I : Enclave → Prop) : Prop extends CacheInvariant env I where
  pins : ∀ s customer venue parsed, I s →
    I { s with pins := (admitBlob env customer venue parsed s.pins).2 }

structure HandlerInvariant (env : Env) (I : Enclave → Prop) : Prop extends
    LoadInvariant env I where
  ledger : ∀ s key, I s → I { s with ledger := (s.ledger.recordIfNew key).2 }

theorem SignInvariant.handler {env : Env} (hI : SignInvariant I) :
    HandlerInvariant env I where
  get s _ _ hs := hI.dekCache s _ hs
  put s _ _ _ _ _ _ hs := hI.dekCache s _ hs
  pins s _ _ _ hs := hI.pins s _ hs
  ledger s _ hs := hI.ledger s _ hs

section

variable {env : Env} {amb : Ambient} {req : SignRequest} {identity : ResolvedIdentity}

theorem admitBlob_withPolicy_iff {customerId : String} {policy : Policy} {secret : Json}
    {pins : PinStore} :
    (admitBlob env customerId venue (.withPolicy policy secret) pins).1 = .ok () ↔
      PolicyAdmissible env customerId venue policy pins := by
  simp only [admitBlob, PolicyAdmissible]
  by_cases hstrict : (blobFloorStrict (policyRequired env) venue && isMoneyVenue venue) = true
  · have hmoney := (Bool.and_eq_true_iff.mp hstrict).2
    rw [if_pos hstrict, if_pos hstrict, admitStrict, rot3UncappedMoneyKeyRejected, hmoney]
    cases verifyPolicyAuthority env policy customerId venue <;> simp
  · rw [if_neg hstrict, if_neg hstrict, admitTofu]
    cases policy.signerPubkey <;> cases policy.policySignature
    · simp [PinStore.requireIfPinned]
    · simp
    · simp
    · cases hcanonical : canonicalPolicySignable env policy with
      | none => simp
      | some canonical =>
        rename_i pkHex sigHex
        cases hverify : PinStore.verify env canonical pkHex sigHex <;>
          simp [PinStore.verifyAndPin, hverify, PinStore.pin_isOk_iff]

theorem kmsDecrypt_ok {creds : AwsCredentials} {ciphertext plaintext : Bytes}
    {ctx : EncryptionContext} (h : kmsDecrypt env creds ciphertext ctx = .ok plaintext) :
    env.kmsDecrypt creds ciphertext ctx = .ok plaintext := by
  unfold kmsDecrypt at h
  split at h
  · rename_i hkms
    rwa [← Except.ok.inj h]
  · cases h
  · cases h

theorem openEnvelope_keeps {creds : AwsCredentials} {raw aad : Bytes} {ctx : EncryptionContext}
    (hget : ∀ s now key, I s → I { s with dekCache := (s.dekCache.get env now key).2 })
    (hput : ∀ s now creds wrappedDek dek, env.kmsDecrypt creds wrappedDek ctx = .ok dek → I s →
      I { s with dekCache := s.dekCache.put env now (deriveKey env wrappedDek ctx) dek }) :
    (openEnvelope env amb creds raw ctx aad).Keeps I := by
  simp only [openEnvelope, keeps_ofOption_bind]
  intro envelope _ wrappedDek _
  refine keeps_bind (keeps_update fun s hs => hget s _ _ hs) fun cached => ?_
  cases cached with
  | some dek => exact keeps_ofOption _ _
  | none =>
    simp only [keeps_ofExcept_bind, keeps_ofOption_bind]
    intro dek hdek plaintext _
    exact keeps_bind
      (keeps_update fun s hs => hput s _ _ _ _ (kmsDecrypt_ok hdek) hs)
      fun _ => keeps_pure _

theorem loadSecretFor_keeps_own
    (hget : ∀ s now key, I s → I { s with dekCache := (s.dekCache.get env now key).2 })
    (hput : ∀ s now creds wrappedDek dek,
      env.kmsDecrypt creds wrappedDek (identity.encryptionContext venue) = .ok dek → I s →
      I { s with
          dekCache := s.dekCache.put env now
            (deriveKey env wrappedDek (identity.encryptionContext venue)) dek }) :
    (loadSecretFor env amb req identity venue).Keeps I := by
  simp only [loadSecretFor, keeps_ofOption_bind, keeps_ensure_bind]
  intro creds _ ciphertextB64 _ _ raw _ _
  by_cases h : isEnvelope env raw = true
  · simpa only [h, if_true] using openEnvelope_keeps hget hput
  · simpa only [h, Bool.false_eq_true, if_false] using keeps_ofExcept _

theorem loadSecretFor_keeps (hI : CacheInvariant env I) :
    (loadSecretFor env amb req identity venue).Keeps I :=
  loadSecretFor_keeps_own hI.get fun s now creds wrappedDek dek =>
    hI.put s now creds wrappedDek _ dek

theorem loadAndParseBlob_keeps (hcache : CacheInvariant env I) (hpins : ∀ s venue parsed, I s →
      I { s with pins := (admitBlob env identity.customerId venue parsed s.pins).2 }) :
    (loadAndParseBlob env amb req identity).Keeps I := by
  simp only [loadAndParseBlob, keeps_ofOption_bind, keeps_ensure_bind]
  intro venue _ _
  refine keeps_bind (loadSecretFor_keeps hcache) fun plaintext => ?_
  refine keeps_ofOption_bind.mpr fun parsed _ => ?_
  refine keeps_bind (keeps_update fun s hs => hpins s venue parsed hs) fun _ => ?_
  simp

theorem loadSecretFor_silent :
    (loadSecretFor env amb req identity venue).Silent := by
  have henvelope : ∀ creds raw ctx aad, (openEnvelope env amb creds raw ctx aad).Silent := by
    intro creds raw ctx aad
    refine silent_ofOption_bind fun envelope =>
      silent_ofOption_bind fun wrappedDek =>
      silent_bind (silent_update _) fun cached => ?_
    cases cached with
    | some dek => exact silent_ofOption _ _
    | none =>
      exact silent_bind (silent_ofExcept _) fun dek =>
        silent_ofOption_bind fun plaintext =>
        silent_bind (silent_update _) fun _ => silent_pure _
  refine silent_ofOption_bind fun creds =>
    silent_ofOption_bind fun ciphertextB64 =>
    silent_bind (silent_ensure _ _) fun _ =>
    silent_ofOption_bind fun raw =>
    silent_bind (silent_ensure _ _) fun _ => ?_
  by_cases h : isEnvelope env raw = true
  · simpa only [h, if_true] using henvelope _ _ _ _
  · simpa only [h, Bool.false_eq_true, if_false] using silent_ofExcept _

theorem loadAndParseBlob_performs {P : Event → Prop}
    (hP : ∀ customerId venue policy secret, P (.blobAccepted customerId venue policy secret)) :
    (loadAndParseBlob env amb req identity).Performs P := by
  refine performs_bind (performs_ofOption _ _) fun venue =>
    performs_bind (performs_ensure _ _) fun _ =>
    performs_bind loadSecretFor_silent.performs fun plaintext =>
    performs_bind (performs_ofOption _ _) fun parsed =>
    performs_bind (performs_update _) fun _ =>
    performs_bind (performs_perform (hP _ _ _ _)) fun _ => performs_pure _

theorem loadSecretFor_returns {s s' : Enclave} {plaintext : Bytes} {t : List Event}
    (h : (loadSecretFor env amb req identity venue).Returns s plaintext s' t) :
    t = [] ∧ s' = { s with dekCache := s'.dekCache } := by
  refine ⟨loadSecretFor_silent.returns h, ?_⟩
  have hI : CacheInvariant env fun x => x = { s with dekCache := x.dekCache } :=
    ⟨fun x _ _ hx => by rw [hx], fun x _ _ _ _ _ _ hx => by rw [hx]⟩
  exact (loadSecretFor_keeps hI).returns rfl h

theorem loadAndParseBlob_returns {s s' : Enclave} {r : Option Policy × Json} {t : List Event} :
    (loadAndParseBlob env amb req identity).Returns s r s' t ↔
      ∃ venue plaintext parsed cache pins, venueForAction req.action = some venue ∧
        identity.venueAllowed venue = true ∧
        (loadSecretFor env amb req identity venue).Returns s plaintext
          { s with dekCache := cache } [] ∧
        parseBlob env plaintext = some parsed ∧
        admitBlob env identity.customerId venue parsed s.pins = (.ok (), pins) ∧
        r = (parsed.policy, parsed.secretJson) ∧ s' = { s with dekCache := cache, pins := pins } ∧
        t = [.blobAccepted identity.customerId venue parsed.policy parsed.secretJson] := by
  simp only [loadAndParseBlob, returns_ofOption_bind, returns_ensure_bind]
  constructor
  · rintro ⟨venue, hvenue, hallowed, h⟩
    obtain ⟨plaintext, s₁, t₁, t₂, hload, hadmitted, rfl⟩ := returns_bind.mp h
    obtain ⟨rfl, hs₁⟩ := loadSecretFor_returns hload
    simp only [returns_ofOption_bind, returns_update_bind, returns_perform_bind,
      returns_pure, Prod.mk.injEq] at hadmitted
    obtain ⟨parsed, hparse, _, s₂, ⟨haccept, rfl⟩, _, ⟨rfl, rfl, rfl⟩, rfl⟩ := hadmitted
    rw [hs₁] at hload haccept ⊢
    exact ⟨venue, plaintext, parsed, s₁.dekCache, _, hvenue, hallowed, hload, hparse,
      Prod.ext haccept rfl, rfl, rfl, rfl⟩
  · rintro ⟨venue, plaintext, parsed, cache, pins, hvenue, hallowed, hload, hparse, haccept, rfl,
      rfl, rfl⟩
    refine ⟨venue, hvenue, hallowed, returns_bind.mpr ⟨_, _, [], _, hload, ?_, rfl⟩⟩
    simp [hparse, haccept]

end

end Signer
