import Signer.CacheRuns
import Signer.CanonicalText
import Signer.RegistryRuns
import Signer.Text.Base64

/-!
# Loading secrets over time

Tenants come and go with the registry, and their requests load secrets through the data-key cache.
Every identity that loads comes from a registry that was checked, so its ids are safe, and strings
built from safe ids tell customers and venues apart.
-/

namespace Signer

open Text Proc

variable {s' : Enclave} {t : List Event}

/-- Refreshes of the registry, and loads. -/
inductive LoadEvent where
  | challenge (nonce : Bytes)
  | refresh (entriesJson : Bytes) (nonceHex : String) (version : UInt64) (signatureHex : String)
  | load (amb : Ambient) (req : SignRequest) (token venue : String)
  | flush

def loadEvent (env : Env) (event : LoadEvent) (s : Enclave) :
    Option (Except LoadSecretError Bytes) × Enclave :=
  match event with
  | .challenge nonce => (none, { s with registry := (s.registry.challenge nonce).2 })
  | .refresh entriesJson nonceHex version signatureHex =>
    (none, { s with registry := (s.registry.refresh env entriesJson nonceHex version signatureHex).2 })
  | .load amb req token venue =>
    match (s.registry.resolve env token).filter (·.venueAllowed venue) with
    | none => (none, s)
    | some identity =>
      let loaded := (loadSecretFor env amb req identity venue).run s
      (some loaded.result, loaded.state)
  | .flush => (none, { s with dekCache := s.dekCache.flush })

def loadHistory (env : Env) (events : List LoadEvent) :
    List (Run.Step LoadEvent Enclave (Option (Except LoadSecretError Bytes))) :=
  Run.steps (loadEvent env) {} events

/-! ### Strings made of ids -/

section

variable {c c' v v' : String}

def EncryptionContext.IsSafe (ctx : EncryptionContext) : Prop :=
  isSafeId ctx.customerId = true ∧ isSafeId ctx.venueId = true

instance (ctx : EncryptionContext) : Decidable ctx.IsSafe := inferInstanceAs (Decidable (_ ∧ _))

theorem append_sep_inj {sep : Char} {r r' : List Char}
    (hsep : ¬(isAsciiAlphanumeric sep = true ∨ sep = '-' ∨ sep = '_'))
    (hc : isSafeId c = true) (hc' : isSafeId c' = true)
    (h : c.toList ++ sep :: r = c'.toList ++ sep :: r') : c = c' ∧ r = r' := by
  have hnotMem : ∀ s, isSafeId s = true → ∀ a ∈ s.toList, a ≠ sep := by
    intro s hs a ha
    simp only [isSafeId, decide_eq_true_eq, Bool.decide_and, Bool.and_eq_true,
      List.all_eq_true] at hs
    rintro rfl
    exact hsep (hs.2.2 a ha)
  obtain ⟨hids, hrest⟩ := append_inj_of_takeWhile (p := (· != sep))
    (fun a ha => by simpa using hnotMem c hc a ha) (fun a ha => by simpa using hnotMem c' hc' a ha)
    (by simp) (by simp) h
  exact ⟨String.toList_injective hids, (List.cons.inj hrest).2⟩

theorem sealedAad_inj {id id' : ResolvedIdentity} {n n' : Nat} (hc : isSafeId id.customerId = true)
    (hc' : isSafeId id'.customerId = true) (hv : isSafeId v = true) (hv' : isSafeId v' = true)
    (h : id.sealedAad v n = id'.sealedAad v' n') :
    id.customerId = id'.customerId ∧ v = v' ∧ n = n' := by
  have htext := congrArg String.toList (bytes_injective h)
  have hvenueName : "\nvenue_id=".toList = '\n' :: "venue_id=".toList := by decide
  have hversionName : "\nkey_version=".toList = '\n' :: "key_version=".toList := by decide
  simp only [String.toList_append, List.append_assoc, hvenueName, hversionName,
    List.cons_append] at htext
  obtain ⟨hcustomer, hrest⟩ := append_sep_inj (by decide) hc hc' (List.append_cancel_left htext)
  obtain ⟨hvenue, hrest⟩ := append_sep_inj (by decide) hv hv' (List.append_cancel_left hrest)
  exact ⟨hcustomer, hvenue, repr_injective
    (String.toList_injective (List.append_cancel_left hrest))⟩

theorem tofuKey_inj (hc : isSafeId c = true) (hc' : isSafeId c' = true)
    (h : tofuKey c v = tofuKey c' v') : c = c' ∧ v = v' := by
  have htext := congrArg String.toList h
  have hslash : "/".toList = ['/'] := by decide
  simp only [tofuKey, String.toList_append, List.append_assoc, hslash,
    List.singleton_append] at htext
  obtain ⟨hcustomer, hvenue⟩ := append_sep_inj (by decide) hc hc' htext
  exact ⟨hcustomer, String.toList_injective hvenue⟩

theorem cacheKeyInput_inj_of_isSafe {w w' : Bytes} {ctx ctx' : EncryptionContext}
    (hctx : ctx.IsSafe)
    (hctx' : ctx'.IsSafe) (h : cacheKeyInput w ctx = cacheKeyInput w' ctx') :
    w = w' ∧ ctx = ctx' := by
  refine cacheKeyInput_inj hctx.1 hctx.2 (fun hmod htotal => ?_) h
  have h₁ := length_le_of_isSafeId hctx.1
  have h₂ := length_le_of_isSafeId hctx.2
  have h₃ := length_le_of_isSafeId hctx'.1
  have h₄ := length_le_of_isSafeId hctx'.2
  omega

end

/-! ### Sealed envelopes -/

/-- An envelope as `serde_json` writes it. -/
def envelopeText (e : Envelope) : Bytes :=
  bytes ("\x7b\"version\":2,\"wrapped_dek\":\"" ++ e.wrappedDek ++ "\",\"nonce\":\"" ++
    e.nonce ++ "\",\"ciphertext\":\"" ++ e.ciphertext ++ "\"\x7d")

/-- The envelope of `sealWithDek`. -/
def sealedEnvelope (wrapped nonce ciphertext : Bytes) : Envelope where
  version := envelopeVersion
  wrappedDek := base64Encode wrapped
  nonce := base64Encode nonce
  ciphertext := base64Encode ciphertext

theorem length_envelopeText {wrapped nonce ciphertext : Bytes} (hnonce : nonce.length = 12) :
    (envelopeText (sealedEnvelope wrapped nonce ciphertext)).length =
      73 + base64Length wrapped.length + base64Length ciphertext.length := by
  have hversion : ("\x7b\"version\":2,\"wrapped_dek\":\"").utf8ByteSize = 28 := by decide +kernel
  have hname : ("\",\"nonce\":\"").utf8ByteSize = 11 := by decide
  have htext : ("\",\"ciphertext\":\"").utf8ByteSize = 16 := by decide
  have hend : ("\"\x7d").utf8ByteSize = 2 := by decide
  have htwelve : base64Length 12 = 16 := by decide
  simp only [envelopeText, sealedEnvelope, length_bytes, String.utf8ByteSize_append,
    utf8ByteSize_base64Encode, hnonce, hversion, hname, htext, hend, htwelve]
  omega

/-- The linked code reads the text of `e` back. -/
structure ReadsEnvelope (env : Env) (e : Envelope) : Prop where
  base64Decode : ∀ b, env.base64Decode (base64Encode b) = some b
  value : env.jsonFromSlice (envelopeText e) = some e.toJson
  read : env.envelopeFromSlice (envelopeText e) = some e

section

variable {env : Env} {amb : Ambient} {req : SignRequest} {identity : ResolvedIdentity}
  {venue : String} {creds : AwsCredentials} {wrapped nonce ciphertext aad plaintext dek : Bytes}
  {ctx : EncryptionContext} {s : Enclave}
  (hreads : ReadsEnvelope env (sealedEnvelope wrapped nonce ciphertext))

include hreads

theorem ReadsEnvelope.isEnvelope :
    isEnvelope env (envelopeText (sealedEnvelope wrapped nonce ciphertext)) = true := by
  rw [Signer.isEnvelope, hreads.value]
  simp [Envelope.toJson, sealedEnvelope, Json.get, Policy.unsigned, Json.asU64]

theorem ReadsEnvelope.parseEnvelope :
    parseEnvelope env (envelopeText (sealedEnvelope wrapped nonce ciphertext)) =
      some (sealedEnvelope wrapped nonce ciphertext) := by
  rw [Signer.parseEnvelope, hreads.read]
  simp [sealedEnvelope]

/-- A sealed envelope is opened if its text is not too long. -/
theorem ReadsEnvelope.loadSecretFor_eq (hcreds : req.awsCredentials = some creds)
    (hblob : req.ciphertextBlobBase64 =
      some (base64Encode (envelopeText (sealedEnvelope wrapped nonce ciphertext))))
    (hnonce : nonce.length = 12) :
    loadSecretFor env amb req identity venue = (do
      Proc.ensure (base64Length (73 + base64Length wrapped.length +
        base64Length ciphertext.length) ≤ maxCiphertextBytes) .badRequest
      openEnvelope env amb creds (envelopeText (sealedEnvelope wrapped nonce ciphertext))
        (identity.encryptionContext venue) (identity.sealedAad venue keyVersion)) := by
  have hlength := @length_envelopeText wrapped nonce ciphertext hnonce
  have htext : base64Encode (envelopeText (sealedEnvelope wrapped nonce ciphertext)) ≠ "" := by
    intro h
    have hsize := utf8ByteSize_base64Encode (envelopeText (sealedEnvelope wrapped nonce ciphertext))
    rw [h, hlength, String.utf8ByteSize_empty, base64Length] at hsize
    omega
  refine Proc.ext_run fun s => ?_
  simp only [loadSecretFor, hcreds, hblob, Proc.ofOption_some_bind, hreads.base64Decode,
    Proc.run_ensure_bind, utf8ByteSize_base64Encode, hlength, hreads.isEnvelope, if_true]
  by_cases hfits : base64Length (73 + base64Length wrapped.length +
      base64Length ciphertext.length) ≤ maxCiphertextBytes
  · have hraw : envelopeText (sealedEnvelope wrapped nonce ciphertext) ≠ [] ∧
        73 + base64Length wrapped.length + base64Length ciphertext.length ≤ maxCiphertextBytes := by
      refine ⟨List.ne_nil_of_length_pos (by omega), ?_⟩
      rw [base64Length] at hfits
      omega
    rw [if_pos ⟨htext, hfits⟩, if_pos hraw, if_pos hfits]
  · rw [if_neg (fun h => hfits h.2), if_neg hfits]

variable (hdecrypt : decryptWithDek env dek (sealedEnvelope wrapped nonce ciphertext) aad =
  some plaintext)

include hdecrypt

theorem ReadsEnvelope.run_openEnvelope_of_hit
    (hget : (s.dekCache.get env amb.cacheGetNow (deriveKey env wrapped ctx)).1 = some dek) :
    (openEnvelope env amb creds (envelopeText (sealedEnvelope wrapped nonce ciphertext)) ctx
      aad).run s = ⟨.ok plaintext, { s with
        dekCache := (s.dekCache.get env amb.cacheGetNow (deriveKey env wrapped ctx)).2 }, []⟩ := by
  have hunwrap : env.base64Decode (sealedEnvelope wrapped nonce ciphertext).wrappedDek =
      some wrapped := hreads.base64Decode wrapped
  rw [openEnvelope, hreads.parseEnvelope, Proc.ofOption_some_bind, hunwrap,
    Proc.ofOption_some_bind, Proc.run_update_bind, hget]
  dsimp only
  rw [hdecrypt]
  rfl

theorem ReadsEnvelope.run_openEnvelope_of_miss
    (hget : (s.dekCache.get env amb.cacheGetNow (deriveKey env wrapped ctx)).1 = none)
    (hkms : env.kmsDecrypt creds wrapped ctx = .ok dek) :
    (openEnvelope env amb creds (envelopeText (sealedEnvelope wrapped nonce ciphertext)) ctx
      aad).run s = ⟨.ok plaintext, { s with
        dekCache := (s.dekCache.get env amb.cacheGetNow (deriveKey env wrapped ctx)).2.put env
          amb.cachePutNow (deriveKey env wrapped ctx) dek }, []⟩ := by
  have hunwrap : env.base64Decode (sealedEnvelope wrapped nonce ciphertext).wrappedDek =
      some wrapped := hreads.base64Decode wrapped
  rw [openEnvelope, hreads.parseEnvelope, Proc.ofOption_some_bind, hunwrap,
    Proc.ofOption_some_bind, Proc.run_update_bind, hget]
  dsimp only
  rw [kmsDecrypt, hkms]
  dsimp only
  rw [Proc.ofExcept_ok_bind, hdecrypt]
  rfl

end

/-! ### Loading without a cache -/

def openUncached (env : Env) (creds : AwsCredentials) (raw : Bytes) (ctx : EncryptionContext)
    (aad : Bytes) : Except LoadSecretError Bytes :=
  match parseEnvelope env raw with
  | none => .error .badRequest
  | some envelope =>
    match env.base64Decode envelope.wrappedDek with
    | none => .error .badRequest
    | some wrappedDek =>
      match kmsDecrypt env creds wrappedDek ctx with
      | .error e => .error e
      | .ok dek => ((decryptWithDek env dek envelope aad).map .ok).getD (.error .internal)

variable {now : Nat}

section

variable {env : Env} {amb : Ambient} {req : SignRequest} {identity : ResolvedIdentity}
  {venue : String}
  {creds : AwsCredentials} {raw aad plaintext : Bytes} {ctx : EncryptionContext} {s : Enclave}

theorem result_openEnvelope
    (hhit : ∀ wrappedDek dek,
      (s.dekCache.get env amb.cacheGetNow (deriveKey env wrappedDek ctx)).1 = some dek →
      kmsDecrypt env creds wrappedDek ctx = .ok dek) :
    ((openEnvelope env amb creds raw ctx aad).run s).result =
      openUncached env creds raw ctx aad := by
  unfold openEnvelope openUncached
  cases hparse : parseEnvelope env raw with
  | none => rfl
  | some envelope =>
    rw [Proc.ofOption_some_bind]
    dsimp only
    cases hdecode : env.base64Decode envelope.wrappedDek with
    | none => rfl
    | some wrappedDek =>
      rw [Proc.ofOption_some_bind]
      dsimp only
      rw [Proc.run_update_bind]
      cases hget : (s.dekCache.get env amb.cacheGetNow (deriveKey env wrappedDek ctx)).1 with
      | some dek =>
        rw [hhit wrappedDek dek hget]
        dsimp only
        cases decryptWithDek env dek envelope aad <;> rfl
      | none =>
        cases hkms : kmsDecrypt env creds wrappedDek ctx with
        | error e => rfl
        | ok dek =>
          dsimp only
          rw [Proc.ofExcept_ok_bind]
          cases decryptWithDek env dek envelope aad <;> rfl

def loadUncached (env : Env) (req : SignRequest) (identity : ResolvedIdentity) (venue : String) :
    Except LoadSecretError Bytes :=
  match req.awsCredentials, req.ciphertextBlobBase64 with
  | some creds, some ciphertextB64 =>
    if ciphertextB64 = "" ∨ maxCiphertextBytes < ciphertextB64.utf8ByteSize then .error .badRequest
    else
      match env.base64Decode ciphertextB64 with
      | none => .error .badRequest
      | some raw =>
        if raw = [] ∨ maxCiphertextBytes < raw.length then .error .badRequest
        else if isEnvelope env raw then
          openUncached env creds raw (identity.encryptionContext venue)
            (identity.sealedAad venue keyVersion)
        else kmsDecrypt env creds raw (identity.encryptionContext venue)
  | _, _ => .error .badRequest

theorem result_loadSecretFor
    (hhit : ∀ creds wrappedDek dek,
      (s.dekCache.get env amb.cacheGetNow
        (deriveKey env wrappedDek (identity.encryptionContext venue))).1 = some dek →
      kmsDecrypt env creds wrappedDek (identity.encryptionContext venue) = .ok dek) :
    ((loadSecretFor env amb req identity venue).run s).result =
      loadUncached env req identity venue := by
  unfold loadSecretFor loadUncached
  cases req.awsCredentials with
  | none => rfl
  | some creds =>
    rw [Proc.ofOption_some_bind]
    cases req.ciphertextBlobBase64 with
    | none => rfl
    | some ciphertextB64 =>
      rw [Proc.ofOption_some_bind, Proc.run_ensure_bind]
      dsimp only
      by_cases htext : ciphertextB64 = "" ∨ maxCiphertextBytes < ciphertextB64.utf8ByteSize
      · rw [if_neg (by rw [← Nat.not_lt]; tauto), if_pos htext]
      · rw [if_pos (by rw [← Nat.not_lt]; tauto), if_neg htext]
        cases env.base64Decode ciphertextB64 with
        | none => rfl
        | some raw =>
          rw [Proc.ofOption_some_bind, Proc.run_ensure_bind]
          dsimp only
          by_cases hraw : raw = [] ∨ maxCiphertextBytes < raw.length
          · rw [if_neg (by rw [← Nat.not_lt]; tauto), if_pos hraw]
          · rw [if_pos (by rw [← Nat.not_lt]; tauto), if_neg hraw]
            split
            · exact result_openEnvelope (hhit creds)
            · rfl

/-! ### What holds along a history -/

/-- Entries have safe ids, and the cache is sound. -/
structure LoadSafe (env : Env) (s : Enclave) : Prop where
  entries : ∀ e ∈ s.registry.entries, isSafeId e.customerId = true ∧
    ∀ v ∈ e.allowedVenues, isSafeId v = true
  cache : s.dekCache.SoundFor EncryptionContext.IsSafe env

theorem LoadSafe.empty : LoadSafe env {} :=
  ⟨by simp, DekCache.soundFor_empty⟩

theorem refresh_entries (env : Env) (reg : Registry) (entriesJson : Bytes) (nonceHex : String)
    (version : UInt64)
    (signatureHex : String) :
    (reg.refresh env entriesJson nonceHex version signatureHex).2.entries = reg.entries ∨
      ∃ entries : List RefreshEntry, (∀ e ∈ entries, Registry.EntryChecked e) ∧
        (reg.refresh env entriesJson nonceHex version signatureHex).2.entries =
          entries.map (Registry.resident env) := by
  unfold Registry.refresh
  cases hvalid : reg.validate env entriesJson nonceHex version signatureHex with
  | error e => exact .inl rfl
  | ok valid =>
    obtain ⟨nonce, entries⟩ := valid
    have hchecked := (Registry.validate_ok hvalid).checked
    dsimp only
    rw [Registry.install]
    split
    · exact .inl rfl
    · exact .inr ⟨entries, hchecked, rfl⟩

theorem isSafe_of_resolve (h : LoadSafe env s) {token : String}
    (hidentity : (s.registry.resolve env token).filter (·.venueAllowed venue) = some identity) :
    (identity.encryptionContext venue).IsSafe := by
  obtain ⟨hresolve, hallowed⟩ := Option.filter_eq_some_iff.mp hidentity
  obtain ⟨e, hfind, rfl⟩ := Option.map_eq_some_iff.mp hresolve
  have hsafe := h.entries e (List.mem_reverse.mp (List.mem_of_find?_eq_some hfind))
  exact ⟨hsafe.1, hsafe.2 venue (of_decide_eq_true hallowed)⟩

theorem LoadSafe.load (h : LoadSafe env s) (hctx : (identity.encryptionContext venue).IsSafe) :
    LoadSafe env ((loadSecretFor env amb req identity venue).run s).state :=
  loadSecretFor_keeps_own (I := LoadSafe env) (fun _ now key hs =>
    ⟨hs.entries, hs.cache.get now key⟩)
    (fun _ now _ _ _ hkms hs => ⟨hs.entries, hs.cache.put now hctx hkms⟩) s h

theorem LoadSafe.event (h : LoadSafe env s) (event : LoadEvent) :
    LoadSafe env (loadEvent env event s).2 := by
  cases event with
  | challenge nonce => exact ⟨h.entries, h.cache⟩
  | refresh entriesJson nonceHex version signatureHex =>
    refine ⟨?_, h.cache⟩
    rcases refresh_entries env s.registry entriesJson nonceHex version signatureHex with
      hsame | ⟨entries, hchecked, hinstalled⟩
    · simp only [loadEvent, hsame]
      exact h.entries
    · simp only [loadEvent, hinstalled, List.mem_map]
      rintro _ ⟨e, he, rfl⟩
      exact ⟨(hchecked e he).customer_safe, (hchecked e he).venues_safe⟩
  | load amb req token venue =>
    simp only [loadEvent]
    split
    · exact h
    · rename_i identity hidentity
      exact h.load (isSafe_of_resolve h hidentity)
  | flush => exact ⟨h.entries, DekCache.soundFor_empty⟩

theorem LoadSafe.kmsDecrypt_of_get (h : LoadSafe env s) (hsha : Function.Injective env.sha256)
    (hctx : ctx.IsSafe) {wrappedDek dek : Bytes}
    (hget : (s.dekCache.get env now (deriveKey env wrappedDek ctx)).1 = some dek) :
    ∃ creds, env.kmsDecrypt creds wrappedDek ctx = .ok dek := by
  obtain ⟨entry, hlookup, rfl⟩ := DekCache.lookup_of_get hget
  obtain ⟨creds, other, ctx', hctx', hkey, hkms⟩ := h.cache _ entry hlookup
  rw [deriveKey_eq, deriveKey_eq] at hkey
  obtain ⟨rfl, rfl⟩ := cacheKeyInput_inj_of_isSafe hctx hctx' (hsha hkey)
  exact ⟨creds, hkms⟩

/-! ### The cache is transparent -/

theorem kmsDecrypt_eq_ok (h : env.kmsDecrypt creds raw ctx = .ok plaintext) :
    kmsDecrypt env creds raw ctx = .ok plaintext := by
  rw [kmsDecrypt, h]

variable {kms : Bytes → EncryptionContext → Option Bytes}

theorem LoadSafe.result_loadSecretFor (h : LoadSafe env s) (hsha : Function.Injective env.sha256)
    (hkms : ∀ creds wrappedDek ctx dek,
      env.kmsDecrypt creds wrappedDek ctx = .ok dek ↔ kms wrappedDek ctx = some dek)
    (hctx : (identity.encryptionContext venue).IsSafe) :
    ((loadSecretFor env amb req identity venue).run s).result =
      loadUncached env req identity venue := by
  refine Signer.result_loadSecretFor fun creds wrappedDek dek hget => ?_
  obtain ⟨creds', hunwrapped⟩ := h.kmsDecrypt_of_get hsha hctx hget
  rw [hkms] at hunwrapped
  exact kmsDecrypt_eq_ok ((hkms creds wrappedDek _ dek).mpr hunwrapped)

def uncached (env : Env) : Env := { env with dekCacheTtlSecs := 0 }

theorem resolve_uncached {reg : Registry} {token : String} :
    reg.resolve (uncached env) token = reg.resolve env token :=
  rfl

theorem registry_loadSecretFor :
    ((loadSecretFor env amb req identity venue).run s).state.registry = s.registry :=
  loadSecretFor_keeps_own (I := fun x => x.registry = s.registry) (fun _ _ _ h => h)
    (fun _ _ _ _ _ _ h => h) s rfl

theorem result_loadSecretFor_uncached :
    ((loadSecretFor (uncached env) amb req identity venue).run s).result =
      loadUncached env req identity venue :=
  Signer.result_loadSecretFor fun creds wrappedDek dek hget => by
    simp [DekCache.get, DekCache.enabled, uncached] at hget

/-- The data-key cache is transparent: every history has the same results as with the cache switched
off, if KMS is a partial function of wrapped key and context. -/
theorem loadHistory_uncached (hsha : Function.Injective env.sha256)
    (hkms : ∀ creds wrappedDek ctx dek,
      env.kmsDecrypt creds wrappedDek ctx = .ok dek ↔ kms wrappedDek ctx = some dek)
    (events : List LoadEvent) :
    (loadHistory env events).map Run.Step.output =
      (loadHistory (uncached env) events).map Run.Step.output := by
  refine Run.map_output_eq (R := fun s t => LoadSafe env s ∧ s.registry = t.registry) ?_
    ⟨LoadSafe.empty, rfl⟩
  rintro event s t ⟨hs, hregistry⟩
  cases event with
  | challenge nonce => exact ⟨rfl, hs.event _, by simp only [loadEvent, hregistry]⟩
  | refresh entriesJson nonceHex version signatureHex =>
    exact ⟨rfl, hs.event _, by simp only [loadEvent, hregistry]; rfl⟩
  | flush => exact ⟨rfl, hs.event _, hregistry⟩
  | load amb req token venue =>
    simp only [loadEvent, resolve_uncached, ← hregistry]
    cases hidentity : (s.registry.resolve env token).filter (·.venueAllowed venue) with
    | none => exact ⟨rfl, hs, hregistry⟩
    | some identity =>
      have hctx := isSafe_of_resolve hs hidentity
      dsimp only
      refine ⟨?_, hs.load hctx, ?_⟩
      · rw [hs.result_loadSecretFor hsha hkms hctx, result_loadSecretFor_uncached]
      · rw [registry_loadSecretFor, registry_loadSecretFor, hregistry]

end

namespace Sample

def wrappedDek : Bytes := bytes "wrapped"

def dataKey : Bytes := List.replicate 32 5

def sealNonce : Bytes := List.replicate 12 6

/-- The bare blob under `dataKey`, sealed for the customer at `binance`. -/
def sealedSecret : Bytes :=
  beBytes 32 0xe199111420abd82fd00c9ec572498ddfede9e5eec49bebceb1b538357f7a9816 ++
    beBytes 29 0x8c98d6d54112575a4cebe9936e324916dd8c9fcdafe82ef6fe238934ac

def envelope : Envelope := sealedEnvelope wrappedDek sealNonce sealedSecret

def withEnvelope (req : SignRequest) : SignRequest :=
  { req with ciphertextBlobBase64 := some (base64Encode (envelopeText envelope)) }

def binanceContext : EncryptionContext := { customerId := customer, venueId := "binance" }

/-- A deployment that reads the envelope, and KMS unwraps its data key for `binance`. -/
def envelopeEnv (base : Env) : Env :=
  { base with
    base64Decode := base64Decode
    jsonFromSlice := fun b =>
      if b = envelopeText envelope then some envelope.toJson else base.jsonFromSlice b
    envelopeFromSlice := fun b => if b = envelopeText envelope then some envelope else none
    kmsDecrypt := fun _ wrapped ctx =>
      if wrapped = wrappedDek ∧ ctx = binanceContext then .ok dataKey else .error .accessDenied
    aesGcmDecrypt := fun dek nonce aad ciphertext =>
      if dek = dataKey ∧ nonce = sealNonce ∧ ciphertext = sealedSecret ∧
        aad = (identity ["binance"] .active).sealedAad "binance" keyVersion then
        some (bytes bareBlob.plaintext)
      else none }

theorem readsEnvelope (base : Env) :
    ReadsEnvelope (envelopeEnv base) (sealedEnvelope wrappedDek sealNonce sealedSecret) where
  base64Decode := base64Decode_encode
  value := by simp only [envelopeEnv, envelope, if_true]
  read := by simp only [envelopeEnv, envelope, if_true]

theorem decryptWithDek_envelope (base : Env) :
    decryptWithDek (envelopeEnv base) dataKey (sealedEnvelope wrappedDek sealNonce sealedSecret)
      ((identity ["binance"] .active).sealedAad "binance" keyVersion) =
      some (bytes bareBlob.plaintext) := by
  simp [decryptWithDek, sealedEnvelope, envelopeEnv, base64Decode_encode, dataKey, sealNonce]

theorem kmsDecrypt_envelopeEnv (base : Env) (creds : AwsCredentials) :
    (envelopeEnv base).kmsDecrypt creds wrappedDek binanceContext = .ok dataKey := by
  simp only [envelopeEnv, and_self, if_true]

def cacheKey : Bytes :=
  beBytes 32 0xeaa73ace02560353adcf26c2734ac8b10b1882c0bfb34a89d71975db02d8e0ef

def cachingEnv : Env :=
  envelopeEnv { registryEnv with
    dekCacheTtlSecs := 60
    dekCacheMax := 256
    sha256 := digests ((cacheKeyInput wrappedDek binanceContext, cacheKey) :: registryDigests) }

def clock (now : Nat) : Ambient := { cacheGetNow := now, cachePutNow := now }

def load (now : Nat) : LoadEvent :=
  .load (clock now) (withEnvelope (request .signBinanceOrder)) token "binance"

def loads : List LoadEvent :=
  [.challenge registryNonce,
    .refresh registryEntries1 (hexEncode registryNonce) 1 (hexEncode registrySignature1),
    load 0, load 1000000000, .flush, load 2000000000]

/-- The enclave after the refresh, with a cache. -/
def refreshed (cache : DekCache) : Enclave := { enclave ["binance"] .active with dekCache := cache }

theorem get_empty (now : Nat) : ({} : DekCache).get cachingEnv now cacheKey = (none, {}) := rfl

theorem refresh_cachingEnv :
    (({} : Registry).challenge registryNonce).2.refresh cachingEnv registryEntries1
      (hexEncode registryNonce) 1 (hexEncode registrySignature1) =
      (.ok 1, (enclave ["binance"] .active).registry) := by
  have hother : registryEntries1 ≠ cacheKeyInput wrappedDek binanceContext :=
    fun h => absurd (congrArg List.head? h) (by decide +kernel)
  have hsha : cachingEnv.sha256 registryEntries1 = registryEnv.sha256 registryEntries1 := by
    simp only [cachingEnv, envelopeEnv, registryEnv, digests, List.lookup_cons,
      beq_false_of_ne hother]
  have hvalidate : ∀ reg : Registry, reg.validate cachingEnv registryEntries1
      (hexEncode registryNonce) 1 (hexEncode registrySignature1) = reg.validate registryEnv
      registryEntries1 (hexEncode registryNonce) 1 (hexEncode registrySignature1) := by
    intro reg
    have hkey : Registry.controlPlaneVk cachingEnv = Registry.controlPlaneVk registryEnv := rfl
    have hverify : cachingEnv.ed25519Verify = registryEnv.ed25519Verify := rfl
    have hentries : cachingEnv.entriesFromSlice = registryEnv.entriesFromSlice := rfl
    simp only [Registry.validate, hkey, hsha, hverify, hentries]
  have hparsed : registryEnv.entriesFromSlice registryEntries1 =
      some [refreshEntry ["binance"]] := by decide +kernel
  rw [Registry.refresh, hvalidate, validate_eq_ok rfl rfl List.mem_cons_self hparsed
    (by decide +kernel)]
  rfl

theorem reads_cachingEnv :
    ReadsEnvelope cachingEnv (sealedEnvelope wrappedDek sealNonce sealedSecret) :=
  readsEnvelope _

theorem deriveKey_wrappedDek : deriveKey cachingEnv wrappedDek binanceContext = cacheKey := by
  decide +kernel

theorem loadEvent_load {cache after : DekCache}
    (hopen : ∀ creds, (openEnvelope cachingEnv (clock now) creds
      (envelopeText (sealedEnvelope wrappedDek sealNonce sealedSecret)) binanceContext
      ((identity ["binance"] .active).sealedAad "binance" keyVersion)).run (refreshed cache) =
      ⟨.ok (bytes bareBlob.plaintext), refreshed after, []⟩) :
    loadEvent cachingEnv (load now) (refreshed cache) =
      (some (.ok (bytes bareBlob.plaintext)), refreshed after) := by
  have hcaller : ((refreshed cache).registry.resolve cachingEnv token).filter
      (·.venueAllowed "binance") = some (identity ["binance"] .active) := by
    show ((enclave ["binance"] .active).registry.resolve cachingEnv token).filter _ = _
    decide +kernel
  have hblob : (withEnvelope (request .signBinanceOrder)).ciphertextBlobBase64 = some
      (base64Encode (envelopeText (sealedEnvelope wrappedDek sealNonce sealedSecret))) := by
    simp only [withEnvelope, envelope]
  have hctx : (identity ["binance"] .active).encryptionContext "binance" = binanceContext := rfl
  simp only [load, loadEvent, hcaller]
  rw [reads_cachingEnv.loadSecretFor_eq rfl hblob rfl, Proc.run_ensure_bind, if_pos (by decide),
    hctx, hopen]

theorem loadEvent_load_of_miss {cache : DekCache}
    (hget : cache.get cachingEnv now cacheKey = (none, cache)) :
    loadEvent cachingEnv (load now) (refreshed cache) = (some (.ok (bytes bareBlob.plaintext)),
      refreshed (cache.put cachingEnv now cacheKey dataKey)) := by
  refine loadEvent_load fun creds => ?_
  rw [← deriveKey_wrappedDek] at hget ⊢
  have hmiss : (refreshed cache).dekCache.get cachingEnv (clock now).cacheGetNow
      (deriveKey cachingEnv wrappedDek binanceContext) = (none, cache) := hget
  rw [reads_cachingEnv.run_openEnvelope_of_miss (decryptWithDek_envelope _)
    (congrArg Prod.fst hmiss) (kmsDecrypt_envelopeEnv _ creds), hmiss]
  rfl

theorem loadEvent_load_of_hit {cache : DekCache}
    (hget : (cache.get cachingEnv now cacheKey).1 = some dataKey) :
    loadEvent cachingEnv (load now) (refreshed cache) = (some (.ok (bytes bareBlob.plaintext)),
      refreshed (cache.get cachingEnv now cacheKey).2) := by
  refine loadEvent_load fun creds => ?_
  rw [← deriveKey_wrappedDek] at hget ⊢
  have hhit : ((refreshed cache).dekCache.get cachingEnv (clock now).cacheGetNow
      (deriveKey cachingEnv wrappedDek binanceContext)).1 = some dataKey := hget
  exact reads_cachingEnv.run_openEnvelope_of_hit (decryptWithDek_envelope _) hhit

end Sample

open Sample in
/-- The envelope is opened with KMS, then out of the cache, and with KMS again after a flush. -/
theorem loadHistory_uncached_sample :
    (loadHistory cachingEnv loads).map Run.Step.output =
      (loadHistory (uncached cachingEnv) loads).map Run.Step.output ∧
    (loadHistory cachingEnv loads).map (fun step => (step.output, step.after.dekCache.order)) =
      [(none, []), (none, []), (some (.ok (bytes bareBlob.plaintext)), [cacheKey]),
        (some (.ok (bytes bareBlob.plaintext)), [cacheKey]), (none, []),
        (some (.ok (bytes bareBlob.plaintext)), [cacheKey])] := by
  have hsha : Function.Injective cachingEnv.sha256 :=
    digests_injective (by decide +kernel) (by decide +kernel)
  have hkms : ∀ creds wrapped ctx dek, cachingEnv.kmsDecrypt creds wrapped ctx = .ok dek ↔
      (if wrapped = wrappedDek ∧ ctx = binanceContext then some dataKey else none) = some dek := by
    intro creds wrapped ctx dek
    simp only [cachingEnv, envelopeEnv]
    split <;> simp
  refine ⟨loadHistory_uncached hsha hkms loads, ?_⟩
  have hrefreshed : loadEvent cachingEnv (.refresh registryEntries1 (hexEncode registryNonce) 1
      (hexEncode registrySignature1)) (loadEvent cachingEnv (.challenge registryNonce) {}).2 =
      (none, refreshed {}) := by
    simp only [loadEvent, refresh_cachingEnv]
    rfl
  have hhit : ((({} : DekCache).put cachingEnv 0 cacheKey dataKey).get cachingEnv 1000000000
      cacheKey).1 = some dataKey := by decide +kernel
  have hflush : ∀ cache, loadEvent cachingEnv .flush (refreshed cache) = (none, refreshed {}) :=
    fun _ => rfl
  have hcache : ∀ cache, (refreshed cache).dekCache = cache := fun _ => rfl
  have hput : ∀ now, (({} : DekCache).put cachingEnv now cacheKey dataKey).order = [cacheKey] :=
    fun _ => rfl
  have horder : ((({} : DekCache).put cachingEnv 0 cacheKey dataKey).get cachingEnv 1000000000
      cacheKey).2.order = [cacheKey] := by decide +kernel
  simp only [loadHistory, loads, Run.steps, List.map, hrefreshed,
    loadEvent_load_of_miss (get_empty _), loadEvent_load_of_hit hhit, hflush, hcache, hput, horder]
  rfl

section

variable {env : Env} {amb : Ambient} {req : SignRequest} {identity : ResolvedIdentity}
  {venue : String}
  {creds : AwsCredentials} {raw aad plaintext : Bytes} {ctx : EncryptionContext} {s : Enclave}

/-! ### A blob opens for whom it was sealed -/

def ContextBound (env : Env) (ciphertext : Bytes) (ctx : EncryptionContext) : Prop :=
  ∀ creds ctx' plaintext, env.kmsDecrypt creds ciphertext ctx' = .ok plaintext → ctx' = ctx

def AadBound (env : Env) (ciphertext aad : Bytes) : Prop :=
  ∀ dek nonce aad' plaintext, env.aesGcmDecrypt dek nonce aad' ciphertext = some plaintext →
    aad' = aad

/-- The blob was sealed for the customer and venue: as a secret, by its data key, or in its
associated data. -/
inductive SealedFor (env : Env) (raw : Bytes) (customer venue : String) : Prop
  | secret : isEnvelope env raw = false →
      ContextBound env raw { customerId := customer, venueId := venue } →
      SealedFor env raw customer venue
  | dataKey {envelope : Envelope} {wrappedDek : Bytes} : isEnvelope env raw = true →
      parseEnvelope env raw = some envelope →
        env.base64Decode envelope.wrappedDek = some wrappedDek →
      ContextBound env wrappedDek { customerId := customer, venueId := venue } →
      SealedFor env raw customer venue
  | content {envelope : Envelope} {ciphertext : Bytes} {version : Nat} : isEnvelope env raw = true →
      parseEnvelope env raw = some envelope →
        env.base64Decode envelope.ciphertext = some ciphertext →
      AadBound env ciphertext
        ((ResolvedIdentity.forProvisionedAgent customer venue).sealedAad venue version) →
      SealedFor env raw customer venue

/-- A state that some history of refreshes and loads reaches. -/
def LoadReachable (env : Env) (s : Enclave) : Prop :=
  s = {} ∨ ∃ events, ∃ step ∈ loadHistory env events, step.after = s

theorem LoadReachable.loadSafe (h : LoadReachable env s) : LoadSafe env s := by
  rcases h with rfl | ⟨events, step, hstep, rfl⟩
  · exact LoadSafe.empty
  · refine (Run.invariant LoadSafe.empty (fun step hstep hbefore => ?_) step hstep).2
    have hmachine := (Run.mem_steps hstep).2
    have hafter : step.after = (loadEvent env step.input step.before).2 := by rw [hmachine]
    exact hafter ▸ hbefore.event step.input

theorem decryptWithDek_eq_some {dek : Bytes} {envelope : Envelope}
    (h : decryptWithDek env dek envelope aad = some plaintext) :
    ∃ nonce ciphertext, env.base64Decode envelope.ciphertext = some ciphertext ∧
      env.aesGcmDecrypt dek nonce aad ciphertext = some plaintext := by
  unfold decryptWithDek at h
  split at h
  · cases h
  · obtain ⟨nonce, -, h⟩ := Option.bind_eq_some_iff.mp h
    obtain ⟨-, -, h⟩ := Option.bind_eq_some_iff.mp h
    obtain ⟨ciphertext, hciphertext, h⟩ := Option.bind_eq_some_iff.mp h
    exact ⟨nonce, ciphertext, hciphertext, h⟩

theorem openEnvelope_returns
    (h : (openEnvelope env amb creds raw ctx aad).Returns s plaintext s' t) :
    ∃ envelope wrappedDek dek, parseEnvelope env raw = some envelope ∧
      env.base64Decode envelope.wrappedDek = some wrappedDek ∧
      ((s.dekCache.get env amb.cacheGetNow (deriveKey env wrappedDek ctx)).1 = some dek ∨
        env.kmsDecrypt creds wrappedDek ctx = .ok dek) ∧
      decryptWithDek env dek envelope aad = some plaintext := by
  simp only [openEnvelope, returns_ofOption_bind, returns_update_bind, Prod.mk.injEq,
    Except.ok.injEq] at h
  obtain ⟨envelope, hparse, wrappedDek, hwrapped, cached, s₁, ⟨hcached, rfl⟩, h⟩ := h
  cases cached with
  | some dek =>
    exact ⟨envelope, wrappedDek, dek, hparse, hwrapped, .inl hcached,
      (returns_ofOption.mp h).1⟩
  | none =>
    simp only [returns_ofExcept_bind, returns_ofOption_bind, returns_update_bind,
      returns_pure] at h
    obtain ⟨dek, hdek, content, hopen, -, -, -, rfl, -⟩ := h
    exact ⟨envelope, wrappedDek, dek, hparse, hwrapped, .inr (kmsDecrypt_ok hdek), hopen⟩

theorem returns_loadSecretFor {creds : AwsCredentials} {ciphertextB64 : String}
    (hcreds : req.awsCredentials = some creds)
    (hblob : req.ciphertextBlobBase64 = some ciphertextB64)
    (hsize : ciphertextB64 ≠ "" ∧ ciphertextB64.utf8ByteSize ≤ maxCiphertextBytes)
    (hdecode : env.base64Decode ciphertextB64 = some raw)
    (hraw : raw ≠ [] ∧ raw.length ≤ maxCiphertextBytes) (hplain : isEnvelope env raw = false)
    (hkms : kmsDecrypt env creds raw (identity.encryptionContext venue) = .ok plaintext) :
    (loadSecretFor env amb req identity venue).Returns s plaintext s [] := by
  simp only [loadSecretFor, hcreds, hblob, hdecode, Proc.ofOption_some_bind,
    returns_ensure_bind]
  refine ⟨hsize, hraw, ?_⟩
  rw [hplain]
  exact returns_ofExcept.mpr ⟨hkms, rfl, rfl⟩

section

variable {customer other : String} (hs : LoadSafe env s) (hsha : Function.Injective env.sha256)
  (hctx : (identity.encryptionContext venue).IsSafe) (hcustomer : isSafeId customer = true)
  (hother : isSafeId other = true)
  (h : (loadSecretFor env amb req identity venue).Returns s plaintext s' t)
  (hraw : req.ciphertextBlobBase64.bind env.base64Decode = some raw)
  (hsealed : SealedFor env raw customer other)

include h hraw

theorem kmsDecrypt_of_returns (hplain : isEnvelope env raw = false) :
    ∃ creds, env.kmsDecrypt creds raw (identity.encryptionContext venue) = .ok plaintext := by
  simp only [loadSecretFor, returns_ofOption_bind, returns_ensure_bind] at h
  obtain ⟨creds, hcreds, ciphertextB64, hblob, -, raw', hdecode, -, h⟩ := h
  rw [hblob, Option.bind_some, hdecode, Option.some.injEq] at hraw
  subst hraw
  rw [hplain] at h
  exact ⟨creds, kmsDecrypt_ok (returns_ofExcept.mp h).1⟩

theorem openEnvelope_of_returns (henvelope : isEnvelope env raw = true) :
    raw.length ≤ maxCiphertextBytes ∧
      ∃ creds, (openEnvelope env amb creds raw (identity.encryptionContext venue)
        (identity.sealedAad venue keyVersion)).Returns s plaintext s' t := by
  simp only [loadSecretFor, returns_ofOption_bind, returns_ensure_bind] at h
  obtain ⟨creds, hcreds, ciphertextB64, hblob, -, raw', hdecode, hsize, h⟩ := h
  rw [hblob, Option.bind_some, hdecode, Option.some.injEq] at hraw
  subst hraw
  rw [henvelope, if_pos rfl] at h
  exact ⟨hsize.2, creds, h⟩

include hctx hcustomer hother hsealed

theorem sealedFor_eq
    (hhit : ∀ envelope wrappedDek dek, raw.length ≤ maxCiphertextBytes →
      parseEnvelope env raw = some envelope →
      env.base64Decode envelope.wrappedDek = some wrappedDek →
      (s.dekCache.get env amb.cacheGetNow
        (deriveKey env wrappedDek (identity.encryptionContext venue))).1 = some dek →
      ∃ creds, env.kmsDecrypt creds wrappedDek (identity.encryptionContext venue) = .ok dek) :
    customer = identity.customerId ∧ other = venue := by
  -- KMS answers under the caller's context only, and so does the cache
  have hbound : ∀ ciphertext creds plaintext,
      ContextBound env ciphertext { customerId := customer, venueId := other } →
      env.kmsDecrypt creds ciphertext (identity.encryptionContext venue) = .ok plaintext →
      customer = identity.customerId ∧ other = venue := by
    intro ciphertext creds plaintext hciphertext hkms
    have heq := hciphertext creds _ plaintext hkms
    rw [ResolvedIdentity.encryptionContext, EncryptionContext.mk.injEq] at heq
    exact ⟨heq.1.symm, heq.2.symm⟩
  cases hsealed with
  | secret hplain hciphertext =>
    obtain ⟨creds, hkms⟩ := kmsDecrypt_of_returns h hraw hplain
    exact hbound raw creds plaintext hciphertext hkms
  | dataKey henvelope hparse hwrapped hciphertext =>
    obtain ⟨hsize, creds, hopen⟩ := openEnvelope_of_returns h hraw henvelope
    obtain ⟨envelope', wrappedDek', dek, hparse', hwrapped', hdek, -⟩ := openEnvelope_returns hopen
    obtain rfl := Option.mem_unique hparse hparse'
    obtain rfl := Option.mem_unique hwrapped hwrapped'
    rcases hdek with hcached | hkms
    · obtain ⟨creds', hkms⟩ := hhit _ _ _ hsize hparse hwrapped hcached
      exact hbound _ creds' dek hciphertext hkms
    · exact hbound _ creds dek hciphertext hkms
  | content henvelope hparse hcontent haad =>
    obtain ⟨-, creds, hopened⟩ := openEnvelope_of_returns h hraw henvelope
    obtain ⟨envelope', wrappedDek', dek, hparse', -, -, hopen⟩ := openEnvelope_returns hopened
    obtain rfl := Option.mem_unique hparse hparse'
    obtain ⟨nonce, ciphertext', hcontent', hdecrypt⟩ := decryptWithDek_eq_some hopen
    obtain rfl := Option.mem_unique hcontent hcontent'
    have heq := haad dek nonce _ plaintext hdecrypt
    obtain ⟨hcustomerEq, hvenueEq, -⟩ := sealedAad_inj hctx.1 hcustomer hctx.2 hother heq
    exact ⟨hcustomerEq.symm, hvenueEq.symm⟩

include hs hsha in
theorem LoadSafe.sealedFor_eq : customer = identity.customerId ∧ other = venue :=
  Signer.sealedFor_eq hctx hcustomer hother h hraw hsealed
    fun _ _ _ _ _ _ => hs.kmsDecrypt_of_get hsha hctx

end

/-- The strings that name a customer and venue determine them, and a secret loads only for the
customer and venue it was sealed for. -/
theorem identities_never_collide (hsha : Function.Injective env.sha256) :
    (∀ (id id' : ResolvedIdentity) (v v' : String) (n n' : Nat),
      (id.encryptionContext v).IsSafe → (id'.encryptionContext v').IsSafe →
      id.sealedAad v n = id'.sealedAad v' n' →
      id.customerId = id'.customerId ∧ v = v' ∧ n = n') ∧
    (∀ c v c' v' : String, isSafeId c = true → isSafeId v = true → isSafeId c' = true →
      isSafeId v' = true → tofuKey c v = tofuKey c' v' → c = c' ∧ v = v') ∧
    (∀ (id id' : ResolvedIdentity) (v v' : String) (w w' : Bytes),
      (id.encryptionContext v).IsSafe → (id'.encryptionContext v').IsSafe →
      cacheKeyInput w (id.encryptionContext v) = cacheKeyInput w' (id'.encryptionContext v') →
      id.customerId = id'.customerId ∧ v = v' ∧ w = w') ∧
    ∀ (s : Enclave) (amb : Ambient) (req : SignRequest) (id : ResolvedIdentity) (v : String)
      (plaintext : Bytes) (s' : Enclave) (t : List Event) (raw : Bytes) (c' v' : String),
      LoadReachable env s → (id.encryptionContext v).IsSafe → isSafeId c' = true →
      isSafeId v' = true →
      (loadSecretFor env amb req id v).Returns s plaintext s' t →
      req.ciphertextBlobBase64.bind env.base64Decode = some raw →
      SealedFor env raw c' v' → c' = id.customerId ∧ v' = v := by
  refine ⟨?_, ?_, ?_, ?_⟩
  · intro id id' v v' n n' hsafe hsafe' h
    exact sealedAad_inj hsafe.1 hsafe'.1 hsafe.2 hsafe'.2 h
  · intro c v c' v' hc _ hc' _ h
    exact tofuKey_inj hc hc' h
  · intro id id' v v' w w' hsafe hsafe' h
    obtain ⟨hw, hctx⟩ := cacheKeyInput_inj_of_isSafe hsafe hsafe' h
    rw [ResolvedIdentity.encryptionContext, ResolvedIdentity.encryptionContext,
      EncryptionContext.mk.injEq] at hctx
    exact ⟨hctx.1, hctx.2, hw⟩
  · intro s amb req id v plaintext s' t raw c' v' hs hsafe hc' hv' h hraw hsealed
    exact hs.loadSafe.sealedFor_eq hsha hsafe hc' hv' h hraw hsealed

end

namespace Sample

def boundEnv : Env :=
  { registryEnv with
    kmsDecrypt := fun _ ciphertext ctx =>
      if ciphertext = [98, 108, 111, 98] ∧
        ctx = { customerId := customer, venueId := "binance" } then
        .ok (bytes bareBlob.plaintext)
      else .error .accessDenied }

end Sample

/-- A secret that loads, and no other identity it is sealed for. -/
theorem identities_never_collide_sample :
    (∃ plaintext s' t, (loadSecretFor Sample.boundEnv {} (Sample.request .signBinanceOrder)
        (Sample.identity ["binance"] .active) "binance").Returns {} plaintext s' t ∧
      ∀ c v, isSafeId c = true → isSafeId v = true →
      SealedFor Sample.boundEnv [98, 108, 111, 98] c v →
        c = "acme" ∧ v = "binance") ∧
    (Sample.identity ["okx"] .active).sealedAad "okx" 1 ≠
      (Sample.identity ["okx"] .active).sealedAad "okx" 11 := by
  have hsha : Function.Injective Sample.boundEnv.sha256 := Sample.registryEnv_sha256_injective
  obtain ⟨haad, -, -, hload⟩ := identities_never_collide hsha
  have hreturns : (loadSecretFor Sample.boundEnv {} (Sample.request .signBinanceOrder)
      (Sample.identity ["binance"] .active) "binance").Returns {}
      (bytes Sample.bareBlob.plaintext) {} [] :=
    returns_loadSecretFor rfl rfl (by decide +kernel) rfl (by decide) (by decide +kernel) rfl
  refine ⟨⟨_, _, _, hreturns, fun c v hc hv hsealed => ?_⟩, fun heq => ?_⟩
  · exact hload {} _ _ _ _ _ _ _ _ c v (.inl rfl) (by decide +kernel) hc hv hreturns rfl hsealed
  · exact absurd (haad _ _ _ _ _ _ (by decide +kernel) (by decide +kernel) heq).2.2 (by decide)

end Signer
