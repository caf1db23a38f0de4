import Signer.LoadHistory
import Signer.RegistryTool

/-!
# The contexts of the system's own keys

The registry blob, the payer key of x402 and the key for attested data are sealed under contexts
of customers and venues that no tenant is meant to have. A refresh refuses to grant the venues of
the two keys to anyone but their owners. The customer and venue of the registry blob are not
among what it refuses.
-/

namespace Signer

open Text

def TenantEntry.identity (e : TenantEntry) : ResolvedIdentity :=
  { customerId := e.customerId, allowedVenues := e.allowedVenues, mode := e.mode }

/-- The entry is no way to a context of the system. -/
structure OutOfReach (env : Env) (e : TenantEntry) (venue : String) : Prop where
  registry_ne : e.identity.encryptionContext venue ≠ registryBlobContext
  x402 : ∀ customer, e.identity.encryptionContext venue =
    { customerId := customer, venueId := "x402" } →
    customer = x402CustomerId
  dataSigning : ∀ customer,
    e.identity.encryptionContext venue = { customerId := customer, venueId := "data-signing" } →
    customer = ResolvedIdentity.forDataSigning.customerId
  blob : ∀ amb req s blob plaintext s' t, ContextBound env blob registryBlobContext →
    isEnvelope env blob = false → req.ciphertextBlobBase64.bind env.base64Decode = some blob →
    ¬(loadSecretFor env amb req e.identity venue).Returns s plaintext s' t

section

variable {env : Env} {reg reg' : Registry} {entriesJson : Bytes} {nonceHex signatureHex : String}
  {version v : UInt64} {e : TenantEntry} {venue : String}

theorem exists_checked_of_refresh
    (h : reg.refresh env entriesJson nonceHex version signatureHex = (.ok v, reg')) :
    ∀ e ∈ reg'.entries, ∃ checked, Registry.EntryChecked checked ∧
      e = Registry.resident env checked := by
  unfold Registry.refresh at h
  split at h
  · cases h
  rename_i nonce entries hvalid
  obtain ⟨-, -, rfl⟩ := Registry.install_ok h
  intro e he
  obtain ⟨checked, hchecked, rfl⟩ := List.mem_map.mp he
  exact ⟨checked, (Registry.validate_ok hvalid).checked checked hchecked, rfl⟩

theorem outOfReach_of_refresh
    (h : reg.refresh env entriesJson nonceHex version signatureHex = (.ok v, reg'))
    (he : e ∈ reg'.entries) (hvenue : venue ∈ e.allowedVenues)
    (hne : e.identity.encryptionContext venue ≠ registryBlobContext) : OutOfReach env e venue := by
  obtain ⟨checked, hchecked, rfl⟩ := exists_checked_of_refresh h e he
  have howner := hchecked.reserved venue hvenue
  refine ⟨hne, fun customer hctx => ?_, fun customer hctx => ?_, ?_⟩
  · rw [ResolvedIdentity.encryptionContext, EncryptionContext.mk.injEq] at hctx
    obtain ⟨rfl, rfl⟩ := hctx
    exact (howner x402CustomerId (by decide +kernel)).symm
  · rw [ResolvedIdentity.encryptionContext, EncryptionContext.mk.injEq] at hctx
    obtain ⟨rfl, rfl⟩ := hctx
    exact (howner "attested-data" (by decide +kernel)).symm
  · intro amb req s blob plaintext s' t hbound hplain hblob hload
    obtain ⟨creds, hkms⟩ := kmsDecrypt_of_returns hload hblob hplain
    exact hne (hbound creds _ plaintext hkms)

/-- The system's keys are out of the reach of every tenant an accepted registry installs exactly if
none is the customer of the registry blob with the venue of the registry blob. -/
theorem outOfReach_iff
    (h : reg.refresh env entriesJson nonceHex version signatureHex = (.ok v, reg')) :
    (∀ e ∈ reg'.entries, ∀ venue ∈ e.allowedVenues, OutOfReach env e venue) ↔
      ∀ e ∈ reg'.entries, e.customerId = "registry-system" → "registry" ∉ e.allowedVenues := by
  constructor
  · intro hreach e he hcustomer hvenue
    refine (hreach e he "registry" hvenue).registry_ne ?_
    simp [TenantEntry.identity, ResolvedIdentity.encryptionContext, registryBlobContext, hcustomer]
  · intro hsystem e he venue hvenue
    refine outOfReach_of_refresh h he hvenue fun hctx => ?_
    rw [ResolvedIdentity.encryptionContext, registryBlobContext, EncryptionContext.mk.injEq] at hctx
    exact hsystem e he hctx.1 (hctx.2 ▸ hvenue)

end

/-! ### A tenant with the registry blob's context -/

namespace Sample

def systemRegistry : SignedRegistry where
  entries := [{ token := "tok-r", customerId := "registry-system", allowedVenues := ["registry"] }]
  json := bytes ("[\x7b\"token\":\"tok-r\",\"customer_id\":\"registry-system\"," ++
    "\"allowed_venues\":[\"registry\"]\x7d]")
  digest := beBytes 32 0x205b93f1d633671c88dd28799cb4231118740b362f66d962fd4fd946e21df153
  signature :=
    beBytes 32 0x97d83adee50c22f1d6e91182aef238426130796cf113401c01b2edcd7a4cca41 ++
      beBytes 32 0x8b22ecf262727a715721c8838728ec392edddda8d6c22d6ccb6f47d98159ab01

def SignedRegistry.value (row : SignedRegistry) : Json :=
  .array (row.entries.map fun e => .object [("token", .string e.token),
    ("customer_id", .string e.customerId),
    ("allowed_venues", .array (e.allowedVenues.map .string))])

/-- KMS unwraps the stored registry under its own context. -/
def registryBlobEnv (row : SignedRegistry) : Env :=
  { controlEnv [row] with
    kmsDecrypt := fun _ ciphertext ctx =>
      if ciphertext = [98, 108, 111, 98] ∧ ctx = registryBlobContext then .ok row.json
      else .error .accessDenied
    jsonFromSlice := fun json => if json = row.json then some row.value else none }

theorem refresh_registryBlobEnv {row : SignedRegistry} {reg : Registry} {entriesJson : Bytes}
    {nonceHex signatureHex : String} {version : UInt64} :
    reg.refresh (registryBlobEnv row) entriesJson nonceHex version signatureHex =
      reg.refresh (controlEnv [row]) entriesJson nonceHex version signatureHex := by
  rw [registryBlobEnv]
  generalize controlEnv [row] = env
  unfold Registry.refresh Registry.validate Registry.install
  rfl

end Sample

theorem returns_handleVerifyBlob {env : Env} {amb : Ambient} {req : SignRequest}
    {identity : ResolvedIdentity} {s s' : Enclave} {t : List Event} {plaintext : Bytes}
    {parsed : ParsedBlob} (hvenue : identity.venueAllowed (req.path.getD "") = true)
    (hload : (loadSecretFor env amb req identity (req.path.getD "")).Returns s plaintext s' t)
    (hparse : parseBlob env plaintext = some parsed)
    (hfloor : blobFloorStrict (policyRequired env) (req.path.getD "") = true →
      parsed.policy.isSome) :
    (handleVerifyBlob env amb req identity).Returns s
      (.okVerifyBlob (hexEncode (env.sha256 plaintext)) (.ofNat plaintext.length)) s' t := by
  rw [handleVerifyBlob, Proc.returns_ensure_bind, Proc.returns_bind]
  refine ⟨hvenue, plaintext, s', t, [], Proc.returns_mapError.mpr hload, ?_, by simp⟩
  rw [hparse, Proc.ofOption_some_bind, Proc.returns_ensure_bind]
  exact ⟨hfloor, Proc.returns_pure.mpr ⟨rfl, rfl, rfl⟩⟩

open Sample in
/-- A registry with such a tenant is accepted, and the tenant has the blob of the registry decrypted
and measured for it. -/
theorem registry_blob_verified :
    ∃ reg', challenged.refresh (registryBlobEnv systemRegistry)
        systemRegistry.json goldenNonceHex 1 systemRegistry.signed.signatureHex =
        (.ok 1, reg') ∧
      ∃ e ∈ reg'.entries, e.identity.encryptionContext "registry" = registryBlobContext ∧
        (handleVerifyBlob (registryBlobEnv systemRegistry) {}
          { request .verifyBlob with path := some "registry" } e.identity).Returns {}
          (.okVerifyBlob (hexEncode systemRegistry.digest) 81) {} [] := by
  obtain ⟨reg', hrefresh, hentries⟩ := refresh_controlEnv systemRegistry rfl
    (by decide) ⟨[()], by decide +kernel⟩
  rw [← refresh_registryBlobEnv] at hrefresh
  refine ⟨reg', hrefresh, _, by rw [hentries]; exact List.mem_singleton.mpr rfl, rfl, ?_⟩
  have hload : (loadSecretFor (registryBlobEnv systemRegistry) {}
      { request .verifyBlob with path := some "registry" }
      { customerId := "registry-system", allowedVenues := ["registry"], mode := .active }
      "registry").Returns {} systemRegistry.json {} [] :=
    returns_loadSecretFor rfl rfl (by decide +kernel) rfl (by decide) (by decide +kernel) rfl
  have hparse : parseBlob (registryBlobEnv systemRegistry) systemRegistry.json =
      some (.legacy systemRegistry.value) := by
    simp [parseBlob, registryBlobEnv, SignedRegistry.value, Json.get]
  have hsha : (registryBlobEnv systemRegistry).sha256 systemRegistry.json =
      systemRegistry.digest := by
    decide +kernel
  have hlength : systemRegistry.json.length = 81 := by decide +kernel
  have hverify := returns_handleVerifyBlob (by decide +kernel) hload hparse
    (fun hstrict => absurd hstrict (by decide +kernel))
  rw [hsha, hlength] at hverify
  exact hverify

open Sample in
/-- The registry of the golden vector keeps the system's keys out of reach. -/
theorem outOfReach_golden :
    ∃ reg', challenged.refresh (registryBlobEnv goldenRegistry)
        goldenRegistry.json goldenNonceHex 1 goldenRegistry.signed.signatureHex =
        (.ok 1, reg') ∧
      ∀ e ∈ reg'.entries, ∀ venue ∈ e.allowedVenues,
        OutOfReach (registryBlobEnv goldenRegistry) e venue := by
  obtain ⟨reg', hrefresh, hentries⟩ := refresh_controlEnv goldenRegistry rfl
    (by decide) ⟨[()], by decide +kernel⟩
  rw [← refresh_registryBlobEnv] at hrefresh
  refine ⟨reg', hrefresh, (outOfReach_iff hrefresh).mpr ?_⟩
  rw [hentries]
  intro e he hcustomer
  obtain rfl := List.mem_singleton.mp he
  exact absurd hcustomer (by decide)

end Signer
