import Signer.VsockServer

/-!
# What the data-key cache holds

Lookups and evictions only drop entries, a put follows a KMS call, and nothing else touches the
cache. The cache key determines the wrapped key and the context, where these are short and safe, so
a hit is what KMS would answer.
-/

namespace Signer

open Text Proc

variable {ctx ctx' : EncryptionContext} {wrappedDek other key dek : Bytes} {s : Enclave}

/-! ### The key of an entry -/

theorem toNat_of_isSafeId {s : String} (h : isSafeId s = true) {c : Char} (hc : c ∈ s.toList) :
    45 ≤ c.toNat ∧ c.toNat ≤ 122 := by
  simp only [isSafeId, decide_eq_true_eq, Bool.decide_and, Bool.and_eq_true, List.all_eq_true] at h
  have hsafe := h.2.2 c hc
  simp only [isAsciiAlphanumeric, isAsciiDigit, Bool.decide_or, Bool.or_eq_true,
    Bool.decide_and, Bool.and_eq_true, decide_eq_true_eq, Char.le_def,
    UInt32.le_iff_toNat_le] at hsafe
  have hval : c.toNat = c.val.toNat := rfl
  rcases hsafe with (⟨h₁, h₂⟩ | ⟨h₁, h₂⟩ | ⟨h₁, h₂⟩) | rfl | rfl
  · have h₁ : 48 ≤ c.val.toNat := h₁
    have h₂ : c.val.toNat ≤ 57 := h₂
    omega
  · have h₁ : 97 ≤ c.val.toNat := h₁
    have h₂ : c.val.toNat ≤ 122 := h₂
    omega
  · have h₁ : 65 ≤ c.val.toNat := h₁
    have h₂ : c.val.toNat ≤ 90 := h₂
    omega
  · decide
  · decide

theorem separator_notMem_of_isSafeId {s : String} (h : isSafeId s = true) :
    (0x1D : UInt8) ∉ bytes s := by
  rw [bytes_of_isAscii fun c hc => decide_eq_true (by have := toNat_of_isSafeId h hc; omega)]
  intro hmem
  obtain ⟨c, hc, hbyte⟩ := List.mem_map.mp hmem
  have hrange := toNat_of_isSafeId h hc
  have hvalue : c.toNat % 256 = 29 := by simpa using congrArg UInt8.toNat hbyte
  omega

theorem length_le_of_isSafeId {s : String} (h : isSafeId s = true) : s.utf8ByteSize ≤ 64 := by
  simp only [isSafeId, decide_eq_true_eq, Bool.decide_and, Bool.and_eq_true] at h
  exact h.2.1

def contextBytes (ctx : EncryptionContext) : Bytes :=
  bytes ctx.customerId ++ 0x1D :: (bytes "venue_id" ++ 0x1E :: bytes ctx.venueId)

theorem contextBytes_inj (hcustomer : isSafeId ctx.customerId = true)
    (hvenue : isSafeId ctx.venueId = true) (h : contextBytes ctx = contextBytes ctx') :
    ctx = ctx' := by
  have hname : (0x1D : UInt8) ∉ bytes "venue_id" ++ 0x1E :: bytes ctx.venueId := by
    simp only [List.mem_append, List.mem_cons, not_or]
    exact ⟨by decide, by decide, separator_notMem_of_isSafeId hvenue⟩
  obtain ⟨hid, -, hrest⟩ :=
    (List.append_cons_inj_of_notMem (separator_notMem_of_isSafeId hcustomer) hname).mp h
  have hvenues := (List.cons.inj (List.append_cancel_left hrest)).2
  cases ctx
  cases ctx'
  rw [EncryptionContext.mk.injEq]
  exact ⟨bytes_injective hid, bytes_injective hvenues⟩

def cacheKeyInput (wrappedDek : Bytes) (ctx : EncryptionContext) : Bytes :=
  leBytes 8 wrappedDek.length ++
    (wrappedDek ++ ([0x1F] ++ bytes "customer_id" ++ [0x1E] ++
    (contextBytes ctx ++ [0x1D])))

theorem deriveKey_eq (env : Env) (wrappedDek : Bytes) (ctx : EncryptionContext) :
    deriveKey env wrappedDek ctx = env.sha256 (cacheKeyInput wrappedDek ctx) := by
  simp [deriveKey, cacheKeyInput, contextBytes]

theorem cacheKeyInput_inj (hcustomer : isSafeId ctx.customerId = true)
    (hvenue : isSafeId ctx.venueId = true)
    (hlength : wrappedDek.length % 2 ^ 64 = other.length % 2 ^ 64 →
      wrappedDek.length + (ctx.customerId.utf8ByteSize + ctx.venueId.utf8ByteSize) =
        other.length + (ctx'.customerId.utf8ByteSize + ctx'.venueId.utf8ByteSize) →
      wrappedDek.length = other.length)
    (h : cacheKeyInput wrappedDek ctx = cacheKeyInput other ctx') :
    wrappedDek = other ∧ ctx = ctx' := by
  rw [cacheKeyInput, cacheKeyInput] at h
  obtain ⟨hlen, hrest⟩ := List.append_inj h (by simp)
  have hsame : wrappedDek.length = other.length := by
    refine hlength (by simpa using mod_eq_of_leBytes hlen) ?_
    have htotal := congrArg List.length hrest
    simp only [contextBytes, List.length_append, List.length_cons, List.length_nil,
      length_bytes] at htotal
    omega
  obtain ⟨hwrapped, hctx⟩ := List.append_inj hrest hsame
  exact ⟨hwrapped, contextBytes_inj hcustomer hvenue
    (List.append_cancel_right (List.append_cancel_left hctx))⟩

variable {env : Env}

theorem deriveKey_inj (hsha : Function.Injective env.sha256)
    (hlength : wrappedDek.length < 2 ^ 32) (hcustomer : isSafeId ctx.customerId = true)
    (hvenue : isSafeId ctx.venueId = true)
    (h : deriveKey env wrappedDek ctx = deriveKey env other ctx') :
    wrappedDek = other ∧ ctx = ctx' := by
  rw [deriveKey_eq, deriveKey_eq] at h
  refine cacheKeyInput_inj hcustomer hvenue (fun hmod htotal => ?_) (hsha h)
  have hc := length_le_of_isSafeId hcustomer
  have hv := length_le_of_isSafeId hvenue
  omega

/-! ### The entries -/

namespace DekCache

/-- Every entry was unwrapped by KMS, under a context of the kind `P` that its key was derived
from. -/
def SoundFor (P : EncryptionContext → Prop) (env : Env) (c : DekCache) : Prop :=
  ∀ key entry, c.map.lookup key = some entry →
    ∃ creds wrappedDek ctx, P ctx ∧ key = deriveKey env wrappedDek ctx ∧
      env.kmsDecrypt creds wrappedDek ctx = .ok entry.dek

/-- A cached data key is one that KMS unwrapped under the context its cache key was derived from. -/
def Sound (env : Env) (c : DekCache) : Prop :=
  ∀ key entry, c.map.lookup key = some entry →
    ∃ creds wrappedDek ctx, key = deriveKey env wrappedDek ctx ∧
      env.kmsDecrypt creds wrappedDek ctx = .ok entry.dek

variable {c : DekCache}

theorem sound_iff : c.Sound env ↔ c.SoundFor (fun _ => True) env := by
  simp [Sound, SoundFor]

section

variable {P : EncryptionContext → Prop} {env : Env} {c : DekCache}

theorem soundFor_empty : SoundFor P env {} := by
  intro key entry h
  simp at h

theorem sound_empty (env : Env) : Sound env {} := sound_iff.mpr soundFor_empty

variable {map : AList fun _ : Bytes => DekEntry}

theorem lookup_of_erase {entry : DekEntry}
    (h : (map.erase other).lookup key = some entry) :
    map.lookup key = some entry := by
  by_cases hkey : key = other
  · rw [hkey, AList.lookup_erase] at h
    cases h
  · rwa [AList.lookup_erase_ne hkey] at h

theorem SoundFor.get (h : c.SoundFor P env) (now : Nat) (key : Bytes) :
    (c.get env now key).2.SoundFor P env := by
  unfold DekCache.get
  split
  · exact h
  · split
    · exact h
    · split
      · exact fun other entry hlookup => h other entry (lookup_of_erase hlookup)
      · exact h

theorem lookup_of_evict {max : Nat} {order : List Bytes}
    {entry : DekEntry} (h : (evict max map order).map.lookup key = some entry) :
    map.lookup key = some entry := by
  induction order generalizing map with
  | nil => exact h
  | cons oldest rest ih =>
    rw [evict] at h
    split at h
    · exact lookup_of_erase (ih h)
    · exact h

theorem SoundFor.put (h : c.SoundFor P env) (now : Nat) {creds : AwsCredentials} (hctx : P ctx)
    (hkms : env.kmsDecrypt creds wrappedDek ctx = .ok dek) :
    (c.put env now (deriveKey env wrappedDek ctx) dek).SoundFor P env := by
  unfold DekCache.put
  split
  · exact h
  · intro key entry hlookup
    have hinserted := lookup_of_evict hlookup
    by_cases hkey : key = deriveKey env wrappedDek ctx
    · rw [hkey, AList.lookup_insert, Option.some.injEq] at hinserted
      exact ⟨creds, wrappedDek, ctx, hctx, hkey, hinserted ▸ hkms⟩
    · rw [AList.lookup_insert_ne hkey] at hinserted
      exact h key entry hinserted

end

theorem lookup_of_get {now : Nat}
    (h : (c.get env now key).1 = some dek) :
    ∃ entry, c.map.lookup key = some entry ∧ entry.dek = dek := by
  unfold DekCache.get at h
  split at h
  · cases h
  · split at h
    · cases h
    · rename_i entry hlookup
      split at h
      · cases h
      · exact ⟨entry, hlookup, Option.some.inj h⟩

theorem Sound.kmsDecrypt_of_get (h : c.Sound env)
    (hsha : Function.Injective env.sha256) {now : Nat} (hlength : wrappedDek.length < 2 ^ 32)
    (hcustomer : isSafeId ctx.customerId = true) (hvenue : isSafeId ctx.venueId = true)
    (hget : (c.get env now (deriveKey env wrappedDek ctx)).1 = some dek) :
    ∃ creds, env.kmsDecrypt creds wrappedDek ctx = .ok dek := by
  obtain ⟨entry, hlookup, rfl⟩ := lookup_of_get hget
  obtain ⟨creds, other, ctx', hkey, hkms⟩ := h _ entry hlookup
  obtain ⟨rfl, rfl⟩ := deriveKey_inj hsha hlength hcustomer hvenue hkey
  exact ⟨creds, hkms⟩

end DekCache

/-! ### Every state the enclave reaches -/

structure TenantInvariant (env : Env) (I : Enclave → Prop) :
    Prop extends HandlerInvariant env I where
  receipts : ∀ s receipts, I s → I { s with receipts := receipts }

structure ServerInvariant (env : Env) (I : Enclave → Prop) : Prop extends
    HandlerInvariant env I where
  registry : ∀ s registry, I s → I { s with registry := registry }
  limiter : ∀ s limiter, I s → I { s with limiter := limiter }
  receipts : ∀ s receipts, I s → I { s with receipts := receipts }

theorem ServerInvariant.tenant {I : Enclave → Prop} (hI : ServerInvariant env I) :
    TenantInvariant env I :=
  { hI.toHandlerInvariant with receipts := hI.receipts }

section

variable {env : Env} {amb : Ambient} {req : SignRequest} {identity : ResolvedIdentity}
  {I : Enclave → Prop}

theorem handleSignData_keeps (hI : TenantInvariant env I) :
    (handleSignData env amb req identity).Keeps I := by
  simp only [handleSignData, keeps_ofOption_bind, keeps_ensure_bind]
  intro raw _ _ data _
  refine keeps_openBlob_bind hI.toLoadInvariant fun blob => ?_
  simp only [keeps_completeSecret_bind, keeps_ofOption_bind]
  intro secret _ pk _
  refine keeps_bind (keeps_update fun s hs => hI.receipts s _ hs) fun _ => ?_
  simp

theorem bypassHandler_keeps
    (hchallenge : ∀ s nonce, I s → I { s with registry := (s.registry.challenge nonce).2 })
    (hrefresh : ∀ s entriesJson nonceHex version signatureHex, I s → I { s with
      registry := (s.registry.refresh env entriesJson nonceHex version signatureHex).2 })
    {h : Handler SignResponse} (hbypass : bypassHandler env amb req = some h) : h.Keeps I := by
  have hprovision : ∀ creds keyId id venue plaintextOf,
      (provisionKey env amb creds keyId id venue plaintextOf).Keeps I := by
    intro creds keyId id venue plaintextOf
    simp [provisionKey]
  unfold bypassHandler at hbypass
  split at hbypass <;> cases hbypass
  · exact keeps_pure _
  · exact keeps_bind (keeps_update fun s hs => hchallenge s _ hs)
      fun _ => keeps_pure _
  · simp only [handleRegistryRefresh, keeps_ofOption_bind, keeps_ensure_bind,
      keeps_ofExcept_bind]
    intro params _ creds _ ciphertext _ _ entries _
    exact keeps_bind (keeps_update fun s hs => hrefresh s _ _ _ _ hs)
      fun _ => keeps_pure _
  · simp [handleProvisionDataKey, filled, hprovision]
  · simp [handleProvisionAgentKey, filled, hprovision]
  · simp only [handleAttestation, keeps_ofExcept_bind]
    intro nonce _ userData _
    refine keeps_read_bind fun pubkey => ?_
    simp

theorem answer_keeps_tenant (hI : TenantInvariant env I) (hs : I s) :
    I (answer env amb req identity s).2 := by
  by_cases hdata : req.action = .signData
  · unfold answer
    split
    · exact hs
    · simp only [dispatch, hdata]
      exact serve_keeps (handleSignData_keeps hI) hs
  · exact answer_keeps hI.toHandlerInvariant hdata hs

theorem handle_keeps_of (hI : TenantInvariant env I)
    (hlimiter : ∀ s limiter, I s → I { s with limiter := limiter })
    (hbypass : ∀ h, bypassHandler env amb req = some h → h.Keeps I) (hs : I s) :
    I (handle env amb req s).2 := by
  unfold handle
  split
  · rename_i h hsome
    exact serve_keeps (hbypass h hsome) hs
  · split
    · exact hs
    · dsimp only
      split
      · exact hlimiter s _ hs
      · split
        · exact hlimiter s _ hs
        · exact hI.receipts _ _ (answer_keeps_tenant hI (hlimiter s _ hs))

theorem handle_keeps (hI : ServerInvariant env I) (hs : I s) :
    I (handle env amb req s).2 :=
  handle_keeps_of hI.tenant hI.limiter (fun _ => bypassHandler_keeps (fun s _ => hI.registry s _)
    fun s _ _ _ _ => hI.registry s _) hs

theorem serverSteps_keeps {conns : List Connection} (hinit : I s)
    (hI : ∀ amb req s, I s → I (handle env amb req s).2) :
    ∀ step ∈ serverSteps env s conns, I step.before ∧ I step.after := by
  refine Run.invariant hinit fun step hstep hbefore => ?_
  have hmachine := (Run.mem_steps hstep).2
  have hafter : step.after = (handleConnection env step.input step.before).2 := by rw [hmachine]
  rw [hafter]
  unfold handleConnection
  split
  · exact hbefore
  · exact hbefore
  · split
    · exact hbefore
    · exact hI _ _ _ hbefore

/-- A state the enclave reaches from boot. -/
def Reachable (env : Env) (s : Enclave) : Prop :=
  s = {} ∨ ∃ conns, ∃ step ∈ serverSteps env {} conns, step.after = s

theorem Reachable.invariant (hI : ServerInvariant env I) (hinit : I {}) (hs : Reachable env s) :
    I s := by
  rcases hs with rfl | ⟨conns, step, hstep, rfl⟩
  · exact hinit
  · exact (serverSteps_keeps hinit (fun _ _ _ => handle_keeps hI) step hstep).2

theorem serverInvariant_sound : ServerInvariant env fun s => s.dekCache.Sound env where
  get _ now key hs := DekCache.sound_iff.mpr ((DekCache.sound_iff.mp hs).get now key)
  put _ now _ _ _ _ hkms hs := DekCache.sound_iff.mpr
    ((DekCache.sound_iff.mp hs).put now trivial hkms)
  pins _ _ _ _ hs := hs
  ledger _ _ hs := hs
  registry _ _ hs := hs
  limiter _ _ hs := hs
  receipts _ _ hs := hs

theorem Reachable.sound (hs : Reachable env s) : s.dekCache.Sound env :=
  hs.invariant serverInvariant_sound (DekCache.sound_empty env)

end

end Signer
