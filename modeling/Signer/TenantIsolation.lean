import Signer.LoadHistory
import Signer.ReceiptCoverage
import Signer.Signing

/-!
# Tenants do not meet

What a secret was sealed for, against what it signs. The data key cache does not weaken this: a key
it hands out is one that KMS gave for the same context.
-/

namespace Signer

section

variable {env : Env} {s : Enclave}

/-- The cache is sound, and customers have safe ids. -/
structure TenantSafe (env : Env) (s : Enclave) : Prop where
  cache : s.dekCache.Sound env
  customers : ∀ e ∈ s.registry.entries, isSafeId e.customerId = true

theorem TenantSafe.boot : TenantSafe env {} :=
  ⟨DekCache.sound_empty env, by simp⟩

theorem tenantInvariant_tenantSafe : TenantInvariant env (TenantSafe env) where
  get s now key hs := ⟨serverInvariant_sound.get s now key hs.cache, hs.customers⟩
  put s now _ _ _ _ hkms hs := ⟨serverInvariant_sound.put s now _ _ _ _ hkms hs.cache, hs.customers⟩
  pins _ _ _ _ hs := ⟨hs.cache, hs.customers⟩
  ledger _ _ hs := ⟨hs.cache, hs.customers⟩
  receipts _ _ hs := ⟨hs.cache, hs.customers⟩

/-- Only a refresh changes who is in the registry, and it checks every identifier. -/
theorem TenantSafe.handle {amb : Ambient} {req : SignRequest} (hs : TenantSafe env s) :
    TenantSafe env (handle env amb req s).2 := by
  refine handle_keeps_of tenantInvariant_tenantSafe (fun _ _ hs => ⟨hs.cache, hs.customers⟩)
    (fun h => bypassHandler_keeps (fun _ _ hs => ⟨hs.cache, hs.customers⟩) ?_) hs
  intro s entriesJson nonceHex version signatureHex hs
  refine ⟨hs.cache, ?_⟩
  rcases refresh_entries env s.registry entriesJson nonceHex version signatureHex with
    hsame | ⟨entries, hchecked, hinstalled⟩
  · rw [hsame]
    exact hs.customers
  · rw [hinstalled]
    intro e he
    obtain ⟨source, hsource, rfl⟩ := List.mem_map.mp he
    exact (hchecked source hsource).customer_safe

theorem TenantSafe.customer {req : SignRequest} {identity : ResolvedIdentity}
    (hs : TenantSafe env s) (hidentity : resolveIdentity env req s = some identity) :
    isSafeId identity.customerId = true := by
  obtain ⟨token, -, hresolve⟩ := Option.bind_eq_some_iff.mp hidentity
  obtain ⟨e, hfind, rfl⟩ := Option.map_eq_some_iff.mp hresolve
  exact hs.customers e (List.mem_reverse.mp (List.mem_of_find?_eq_some hfind))

end

namespace Sample

open Text

end Sample

end Signer
