import Signer.Blob

/-!
# What the sign handlers share

Every sign handler loads its blob, makes the checks of its venue and signs last.
-/

namespace Signer

open Proc

variable {policyHash : Option String} {I : Enclave → Prop}

/-- A refusal names the policy in force. -/
def underPolicy {α : Type} (policyHash : Option String) (x : Except ErrCode α) : Handler α :=
  Proc.ofExcept (x.mapError (denyUnder policyHash))

/-- A blob that was loaded, with the policy that holds for the request. -/
structure Opened where
  policy : Option Policy
  secretJson : Json
  policyHash : Option String

def openBlob (env : Env) (amb : Ambient) (req : SignRequest) (identity : ResolvedIdentity) :
    Handler Opened := do
  let loaded ← (loadAndParseBlob env amb req identity).mapError LoadSecretError.response
  let policyHash ← Proc.ofExcept (enforcePolicy env loaded.1 req)
  pure { policy := loaded.1, secretJson := loaded.2, policyHash }

/-- The secret of the venue, with no part of it empty. -/
def completeSecret {α : Type} (secret : Option α) (isComplete : α → Bool)
    (policyHash : Option String) : Handler α :=
  Proc.ofOption (secret.filter isComplete) (denyUnder policyHash .badRequest)

def releaseCanonical (h : HmacHeaders) (canonical : String) (policyHash : Option String) :
    Handler SignResponse := do
  let resp ← releaseHeaders h policyHash
  pure (resp.withCanonicalBody canonical)

/-! ### What the shared steps do -/

section

variable {env : Env} {amb : Ambient} {req : SignRequest} {identity : ResolvedIdentity}
  {s s' : Enclave} {t : List Event} {α β : Type}

variable {f : α → Handler β} {x : Except ErrCode α}

@[simp]
theorem returns_underPolicy_bind {b : β} :
    (underPolicy policyHash x >>= f).Returns s b s' t ↔
      ∃ a, x = .ok a ∧ (f a).Returns s b s' t := by
  cases x <;> simp [underPolicy]

variable {isComplete : α → Bool}

@[simp]
theorem returns_completeSecret_bind {secret : Option α}
    {b : β} :
    (completeSecret secret isComplete policyHash >>= f).Returns s b s' t ↔
      ∃ a, (secret = some a ∧ isComplete a = true) ∧ (f a).Returns s b s' t := by
  simp [completeSecret, Option.filter_eq_some_iff]

variable {h : HmacHeaders}

@[simp]
theorem returns_releaseHeaders {resp : SignResponse} :
    (releaseHeaders h policyHash).Returns s resp s' t ↔
      resp = (SignResponse.okHeaders h.headers).withPolicyHash policyHash ∧ s' = s ∧
        t = [.signed (.hmac h.secret h.message)] := by
  simp [releaseHeaders, and_assoc]

@[simp]
theorem returns_releaseCanonical {canonical : String} {resp : SignResponse} :
    (releaseCanonical h canonical policyHash).Returns s resp s' t ↔
      resp = ((SignResponse.okHeaders h.headers).withPolicyHash policyHash).withCanonicalBody
        canonical ∧ s' = s ∧ t = [.signed (.hmac h.secret h.message)] := by
  simp [releaseCanonical, returns_bind, and_assoc]

/-- What it takes to load a blob and pass its policy. -/
structure Opens (env : Env) (amb : Ambient) (req : SignRequest) (identity : ResolvedIdentity)
    (s : Enclave) (blob : Opened) (venue : String) (s' : Enclave) : Prop where
  venue_eq : venueForAction req.action = some venue
  loaded : (loadAndParseBlob env amb req identity).Returns s (blob.policy, blob.secretJson) s'
    [.blobAccepted identity.customerId venue blob.policy blob.secretJson]
  enforced : enforcePolicy env blob.policy req = .ok blob.policyHash

variable {blob : Opened}

/-- The one event of opening a blob is that it is accepted. -/
theorem openBlob_returns :
    (openBlob env amb req identity).Returns s blob s' t ↔
      ∃ venue, Opens env amb req identity s blob venue s' ∧
        t = [.blobAccepted identity.customerId venue blob.policy blob.secretJson] := by
  simp only [openBlob, returns_bind, returns_mapError, returns_ofExcept,
    returns_pure]
  constructor
  · rintro ⟨loaded, s₁, t₁, _, hload, ⟨hash, _, _, _, ⟨hpolicy, rfl, rfl⟩, ⟨rfl, rfl, rfl⟩, rfl⟩,
      rfl⟩
    obtain ⟨venue, plaintext, parsed, cache, pins, hvenue, -, -, -, -, rfl, -, rfl⟩ :=
      loadAndParseBlob_returns.mp hload
    exact ⟨venue, ⟨hvenue, hload, hpolicy⟩, rfl⟩
  · rintro ⟨venue, ⟨hvenue, hload, hpolicy⟩, rfl⟩
    exact ⟨_, _, _, [], hload, ⟨_, _, [], [], ⟨hpolicy, rfl, rfl⟩, ⟨rfl, rfl, rfl⟩, rfl⟩, by simp⟩

theorem returns_openBlob_bind {f : Opened → Handler β} {b : β} :
    (openBlob env amb req identity >>= f).Returns s b s' t ↔
      ∃ blob venue s₁ t₁, Opens env amb req identity s blob venue s₁ ∧ (f blob).Returns s₁ b s' t₁ ∧
        t = .blobAccepted identity.customerId venue blob.policy blob.secretJson :: t₁ := by
  simp only [returns_bind, openBlob_returns]
  constructor
  · rintro ⟨blob, s₁, _, t₁, ⟨venue, hopens, rfl⟩, hf, rfl⟩
    exact ⟨blob, venue, s₁, t₁, hopens, hf, rfl⟩
  · rintro ⟨blob, venue, s₁, t₁, hopens, hf, rfl⟩
    exact ⟨blob, s₁, _, t₁, ⟨venue, hopens, rfl⟩, hf, rfl⟩

@[simp]
theorem keeps_underPolicy_bind :
    (underPolicy policyHash x >>= f).Keeps I ↔ ∀ a, x = .ok a → (f a).Keeps I := by
  cases x <;> simp [underPolicy]

@[simp]
theorem keeps_completeSecret_bind {secret : Option α} :
    (completeSecret secret isComplete policyHash >>= f).Keeps I ↔
      ∀ a, secret.filter isComplete = some a → (f a).Keeps I :=
  keeps_ofOption_bind

@[simp]
theorem keeps_releaseHeaders :
    (releaseHeaders h policyHash).Keeps I := by
  simp [releaseHeaders]

@[simp]
theorem keeps_releaseCanonical {canonical : String} :
    (releaseCanonical h canonical policyHash).Keeps I :=
  keeps_bind keeps_releaseHeaders fun _ => keeps_pure _

theorem keeps_openBlob_bind (hI : LoadInvariant env I) {f : Opened → Handler β}
    (hf : ∀ blob, (f blob).Keeps I) : (openBlob env amb req identity >>= f).Keeps I := by
  refine keeps_bind (keeps_bind ?_ fun loaded => ?_) hf
  · exact keeps_mapError (loadAndParseBlob_keeps hI.toCacheInvariant fun s _ _ hs =>
      hI.pins s _ _ _ hs)
  · simp

theorem openBlob_performs {P : Event → Prop}
    (hP : ∀ customerId venue policy secret, P (.blobAccepted customerId venue policy secret)) :
    (openBlob env amb req identity).Performs P :=
  performs_bind (performs_mapError (loadAndParseBlob_performs hP)) fun _ =>
    performs_bind (performs_ofExcept _) fun _ => performs_pure _

/-- The events of a request that was signed: nothing is signed before the checks. -/
def signTrace (identity : ResolvedIdentity) (venue : String) (blob : Opened)
    (intent : Option AgentIntent) (message : SignedMessage) : List Event :=
  .blobAccepted identity.customerId venue blob.policy blob.secretJson ::
    (intent.toList.map .intentAccepted ++ [.signed message])

section

variable {venue : String} {blob : Opened} {intent : Option AgentIntent} {message : SignedMessage}

@[simp]
theorem blobAccepted_mem_signTrace {customer venue' : String} {policy : Option Policy}
    {secret : Json} :
    Event.blobAccepted customer venue' policy secret ∈
        signTrace identity venue blob intent message ↔
      customer = identity.customerId ∧ venue' = venue ∧ policy = blob.policy ∧
        secret = blob.secretJson := by
  simp [signTrace]

@[simp]
theorem intentAccepted_mem_signTrace {i : AgentIntent} :
    Event.intentAccepted i ∈ signTrace identity venue blob intent message ↔ intent = some i := by
  simp [signTrace, eq_comm]

@[simp]
theorem signed_mem_signTrace {message' : SignedMessage} :
    Event.signed message' ∈ signTrace identity venue blob intent message ↔ message' = message := by
  simp [signTrace]

@[simp]
theorem acceptedPolicies_signTrace :
    acceptedPolicies (signTrace identity venue blob intent message) = [blob.policy] := by
  cases intent <;> simp [acceptedPolicies, signTrace]

@[simp]
theorem mem_hmacTexts_signTrace {text : String} :
    text ∈ hmacTexts (signTrace identity venue blob intent message) ↔
      ∃ secret, message = .hmac secret text := by
  simp [mem_hmacTexts, eq_comm]

@[simp]
theorem venueMessages_signTrace_hmac {secret text : String} :
    venueMessages (signTrace identity venue blob intent (.hmac secret text)) =
      [(Text.bytes secret, text)] := by
  cases intent <;> simp [venueMessages, signTrace]

end

theorem Opens.rulesPass {venue : String} {p : Policy}
    (h : Opens env amb req identity s blob venue s') (hp : blob.policy = some p) :
    RulesPass p req := by
  have henforced := h.enforced
  rw [hp] at henforced
  exact (enforcePolicy_some_ok_iff.mp henforced).1

/-- The request with another method and body. -/
def SignRequest.resend (req : SignRequest) (m : String) (body : Option String) : SignRequest :=
  { req with method := some m, body := body }

theorem Opens.resend {venue : String} (m : String) (body : Option String)
    (mode : TenantMode) (h : Opens env amb req identity s blob venue s')
    (hm : ∀ p, blob.policy = some p → p.allowsMethod m = true) :
    Opens env amb (req.resend m body) { identity with mode := mode } s blob venue s' := by
  refine ⟨h.venue_eq, h.loaded, ?_⟩
  have henforced := h.enforced
  cases hpolicy : blob.policy with
  | none =>
    rw [hpolicy, enforcePolicy_none] at henforced
    rw [henforced, enforcePolicy_none]
  | some p =>
    rw [hpolicy, enforcePolicy_some_ok_iff] at henforced
    obtain ⟨hrules, hhash⟩ := henforced
    refine enforcePolicy_some_ok_iff.mpr ⟨{ hrules with method_allowed := ?_ }, hhash⟩
    rintro m' ⟨⟩
    exact hm p hpolicy

end

end Signer
