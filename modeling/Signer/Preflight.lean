import Signer.Pins

/-!
# Pre-flight and the sign path

`verify_blob` tells an operator whether a blob can be used. It decrypts and parses the blob as the
sign path does and refuses a legacy secret where the sign path would. The sign path goes on to check
the policy: the authority's signature and the caps under the strict floor, the pinned key elsewhere.
-/

namespace Signer

section

variable {env : Env} {amb : Ambient} {identity : ResolvedIdentity} {venue : String}

/-- A blob whose pre-flight answers loads, for a request with the same blob on an action of the
venue, exactly if the policy it presents passes the checks that only the sign path makes. -/
theorem preflight_load_iff {vreq sreq : SignRequest} {s s' : Enclave} {resp : SignResponse}
    {t : List Event} (hverified : (handleVerifyBlob env amb vreq identity).Returns s resp s' t)
    (hvenue : vreq.path = some venue) (haction : venueForAction sreq.action = some venue)
    (hcreds : sreq.awsCredentials = vreq.awsCredentials)
    (hblob : sreq.ciphertextBlobBase64 = vreq.ciphertextBlobBase64) :
    (∃ r s₁ t₁, (loadAndParseBlob env amb sreq identity).Returns s r s₁ t₁) ↔
      ∀ policy, (LoadCall.presents env ⟨amb, sreq, identity⟩ s).bind ParsedBlob.policy =
        some policy →
        PolicyAdmissible env identity.customerId venue policy s.pins := by
  obtain ⟨plaintext, parsed, cache, hallowed, hload, hparse, hfloor⟩ :=
    handleVerifyBlob_returns hverified
  have hsame : loadSecretFor env amb vreq identity venue =
      loadSecretFor env amb sreq identity venue := by
    simp only [loadSecretFor, hcreds, hblob]
  rw [hvenue, Option.getD_some] at hallowed hload hfloor
  rw [hsame] at hload
  have hpresents : LoadCall.presents env ⟨amb, sreq, identity⟩ s = some parsed :=
    presents_of_returns haction hload hparse
  rw [hpresents, Option.bind_some]
  have hloads : (∃ r s₁ t₁, (loadAndParseBlob env amb sreq identity).Returns s r s₁ t₁) ↔
      (admitBlob env identity.customerId venue parsed s.pins).1 = .ok () := by
    constructor
    · rintro ⟨r, s₁, t₁, hrun⟩
      obtain ⟨venue', plaintext', parsed', cache', pins', hvenue', -, hload', hparse', haccept,
        -⟩ :=
        loadAndParseBlob_returns.mp hrun
      obtain rfl := Option.some.inj (hvenue'.symm.trans haction)
      obtain ⟨rfl, -⟩ := hload'.unique hload
      obtain rfl := Option.some.inj (hparse'.symm.trans hparse)
      rw [haccept]
    · intro haccept
      exact ⟨_, _, _, loadAndParseBlob_returns.mpr ⟨venue, plaintext, parsed, cache, _, haction,
        hallowed, hload, hparse, Prod.ext haccept rfl, rfl, rfl, rfl⟩⟩
  rw [hloads]
  cases parsed with
  | legacy secret =>
    have hopen : blobFloorStrict (policyRequired env) venue = false := by
      by_contra hstrict
      exact absurd (hfloor (Bool.eq_true_of_not_eq_false hstrict)) (by simp [ParsedBlob.policy])
    simp [admitBlob, hopen, ParsedBlob.policy]
  | withPolicy policy secret =>
    rw [admitBlob_withPolicy_iff]
    simp [ParsedBlob.policy]

end

namespace Sample

def unsignedBlob : Answers :=
  { cappedBlob with
    requirePolicy := some "1"
    policyPubkey := some policyKey }

def binancePreflight : SignRequest := { request .verifyBlob with path := some "binance" }

theorem unsigned_verified :
    ∃ resp s' t, (handleVerifyBlob (env unsignedBlob) {} binancePreflight
      (identity ["binance"] .active)).Returns {} resp s' t := by
  obtain ⟨resp, s', t, hrun, -⟩ : ∃ resp s' t, (handleVerifyBlob (env unsignedBlob) {}
      binancePreflight (identity ["binance"] .active)).Returns {} resp s' t ∧ True :=
    Proc.exists_returns_of_run (by decide +kernel)
  exact ⟨resp, s', t, hrun⟩

end Sample

open Sample in
/-- A blob that no authority signed passes the pre-flight, and no order can be signed with it. -/
theorem preflight_blesses_refused :
    (∃ resp s' t, (handleVerifyBlob (env unsignedBlob) {} binancePreflight
        (identity ["binance"] .active)).Returns {} resp s' t) ∧
      ¬ ∃ r s₁ t₁, (loadAndParseBlob (env unsignedBlob) {} limitOrder
        (identity ["binance"] .active)).Returns {} r s₁ t₁ := by
  refine ⟨unsigned_verified, ?_⟩
  rintro ⟨r, s₁, t₁, hrun⟩
  have hrefused : ((loadAndParseBlob (env unsignedBlob) {} limitOrder
      (identity ["binance"] .active)).run {}).result.isOk = false := by decide +kernel
  rw [hrun] at hrefused
  cases hrefused

open Sample in
/-- The criterion at the sample blob. -/
theorem preflight_load_iff_unsigned :
    (∃ r s₁ t₁, (loadAndParseBlob (env unsignedBlob) {} limitOrder
        (identity ["binance"] .active)).Returns {} r s₁ t₁) ↔
      ∀ policy, (LoadCall.presents (env unsignedBlob) ⟨{}, limitOrder, identity ["binance"] .active⟩
          {}).bind ParsedBlob.policy = some policy →
        PolicyAdmissible (env unsignedBlob) customer "binance" policy ∅ := by
  obtain ⟨resp, s', t, hverified⟩ := unsigned_verified
  exact preflight_load_iff hverified rfl rfl rfl rfl

end Signer
