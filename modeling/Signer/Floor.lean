import Signer.Sample
import Signer.Signing

/-!
# The strict floor

However a blob was sealed or its data key obtained, it is admitted by the same check.
-/

namespace Signer

open Text

/-- The baked authority signed the policy for this customer and this venue. -/
structure AuthoritySigned (env : Env) (policy : Policy) (customerId venue : String) : Prop where
  verified : ∃ pubkeyHex key sigHex sig canonical, env.policyPubkey = some pubkeyHex ∧
    hexDecodeExact 32 pubkeyHex = some key ∧ env.ed25519KeyValid key = true ∧
    policy.policyAuthoritySig = some sigHex ∧ hexDecodeExact 64 sigHex = some sig ∧
    canonicalPolicySignable env policy = some canonical ∧
    env.ed25519Verify key (policyAuthorityMessage customerId venue canonical) sig = true

/-- The policy caps the orders of the venue. -/
structure BindingCaps (policy : Policy) (venue : String) : Prop where
  hl : isHlVenue venue = true → ∃ cap caps, policy.hlOrderCaps = some (cap :: caps)
  other : isHlVenue venue = false → ∃ cap caps, policy.orderCaps = some (cap :: caps)

section

variable {env : Env} {policy : Policy} {customerId venue : String}

theorem policyAuthorityVk_ok {key : Bytes} (h : policyAuthorityVk env = .ok key) :
    ∃ pubkeyHex, env.policyPubkey = some pubkeyHex ∧ hexDecodeExact 32 pubkeyHex = some key ∧
      env.ed25519KeyValid key = true := by
  unfold policyAuthorityVk at h
  split at h
  · cases h
  rename_i pubkeyHex hfilter
  split at h
  · cases h
  rename_i key' hkey
  split at h
  · rename_i hvalid
    cases h
    exact ⟨pubkeyHex, (Option.filter_eq_some_iff.mp hfilter).1, hkey, hvalid⟩
  · cases h

theorem authoritySigned_of_verify (h : verifyPolicyAuthority env policy customerId venue = .ok ()) :
    AuthoritySigned env policy customerId venue := by
  unfold verifyPolicyAuthority at h
  split at h
  · cases h
  rename_i key hkey
  split at h
  · cases h
  rename_i sigHex hsigHex
  split at h
  · cases h
  rename_i sig hsig
  split at h
  · cases h
  rename_i canonical hcanonical
  split at h
  · rename_i hverify
    obtain ⟨pubkeyHex, hpubkey, hdecode, hvalid⟩ := policyAuthorityVk_ok hkey
    exact ⟨pubkeyHex, key, sigHex, sig, canonical, hpubkey, hdecode, hvalid, hsigHex, hsig,
      hcanonical, hverify⟩
  · cases h

theorem exists_cons_of_nonEmpty {α : Type} {caps : Option (List α)} (h : nonEmpty caps = true) :
    ∃ cap rest, caps = some (cap :: rest) := by
  cases caps with
  | none => simp [nonEmpty] at h
  | some list =>
    cases list with
    | nil => simp [nonEmpty] at h
    | cons cap rest => exact ⟨cap, rest, rfl⟩

theorem bindingCaps_of_rot3 (h : rot3BindingCapPresent venue policy = true) :
    BindingCaps policy venue := by
  unfold rot3BindingCapPresent at h
  constructor <;> intro hhl <;> rw [hhl] at h <;> exact exists_cons_of_nonEmpty (by simpa using h)

theorem admitBlob_strict {parsed : ParsedBlob} {pins pins' : PinStore}
    (hstrict : blobFloorStrict (policyRequired env) venue = true)
    (hmoney : isMoneyVenue venue = true)
    (h : admitBlob env customerId venue parsed pins = (.ok (), pins')) :
    ∃ policy secret, parsed = .withPolicy policy secret ∧
      AuthoritySigned env policy customerId venue ∧ BindingCaps policy venue := by
  cases parsed with
  | legacy secret => simp [admitBlob, hstrict] at h
  | withPolicy policy secret =>
    have hadmissible := admitBlob_withPolicy_iff.mp (congrArg Prod.fst h)
    simp only [PolicyAdmissible, hstrict, hmoney, Bool.and_self, if_true] at hadmissible
    exact ⟨policy, secret, rfl, authoritySigned_of_verify hadmissible.1,
      bindingCaps_of_rot3 hadmissible.2⟩

end

/-- In every run, a signature on `hyperliquid_main`, or on any money venue where a policy
is required, was made with a blob of the resolved customer that decrypted to a policy
signed by the authority for this customer and venue, with caps that bind there. -/
theorem strict_floor_holds {env : Env} {s : Enclave} {conns : List Connection} {step : ServerStep}
    {req : SignRequest} {served : Served} {message : SignedMessage} {venue : String}
    (hstep : step ∈ serverSteps env s conns) (hserved : step.output = .served req served)
    (hanswered : served.answered = true) (hsigned : .signed message ∈ served.trace)
    (hvenue : venueForAction req.action = some venue)
    (hfloor : venue = "hyperliquid_main" ∨ isMoneyVenue venue = true ∧ policyRequired env = true) :
    ∃ identity policy secret plaintext limiter cache,
      resolveIdentity env req step.before = some identity ∧
      (loadSecretFor env step.input.amb req identity venue).Returns
        { step.before with limiter := limiter } plaintext
        { step.before with limiter := limiter, dekCache := cache } [] ∧
      parseBlob env plaintext = some (.withPolicy policy secret) ∧
      .blobAccepted identity.customerId venue (some policy) secret ∈ served.trace ∧
      AuthoritySigned env policy identity.customerId venue ∧ BindingCaps policy venue := by
  obtain ⟨frame, identity, limiter, resp, s₁, -, -, hidentity, hrun⟩ :=
    signed_of_serverSteps hstep hserved hanswered hsigned
  obtain ⟨sent, blob, venue', intent, s₂, hsent, hopens, -, htrace⟩ :=
    dispatch_signs hrun hsigned
  obtain ⟨_, plaintext, parsed, cache, pins, hvenue', -, hload, hparse, haccept, hblob, -, -⟩ :=
    loadAndParseBlob_returns.mp hopens.loaded
  -- Both are the venue of the action, and the route of a named operation loads as the request.
  obtain rfl := Option.some.inj ((hopens.venue_eq.symm.trans (hsent.action_eq ▸ rfl)).trans hvenue)
  obtain rfl := Option.some.inj (hopens.venue_eq.symm.trans hvenue')
  have hmoney : isMoneyVenue venue' = true := by
    rcases hfloor with rfl | ⟨hmoney, -⟩
    · decide
    · exact hmoney
  have hstrict : blobFloorStrict (policyRequired env) venue' = true := by
    rcases hfloor with rfl | ⟨-, hrequired⟩
    · simp [blobFloorStrict, floorIsUnconditional]
    · simp [blobFloorStrict, hrequired]
  obtain ⟨policy, secret, rfl, hauthority, hcaps⟩ := admitBlob_strict hstrict hmoney haccept
  obtain ⟨hpolicy, hsecret⟩ := Prod.mk.inj hblob
  rw [hsent.loadSecretFor_eq] at hload
  refine ⟨identity, policy, secret, plaintext, limiter, cache, hidentity, hload, hparse, ?_,
    hauthority, hcaps⟩
  rw [htrace, blobAccepted_mem_signTrace]
  exact ⟨rfl, rfl, hpolicy.symm, hsecret.symm⟩

namespace Sample

def authoritySig : String :=
  "161724202188dce134921fa6709caffbe04e5627e276500a7650c9f7136bfadc" ++
    "cc71cacc1944e6f8e44a7ee7677d962679b268ef759550392c7117b23d0f1c02"

def signedBlob : Answers :=
  { cappedBlob with
    plaintext := wrappedText
      (cappedPolicyText (",\"policy_authority_sig\":\"" ++ authoritySig ++ "\""))
    parsed := .withPolicy { cappedPolicy with policyAuthoritySig := some authoritySig } hmacSecret
    verifies := fun key message sig =>
      hexDecode policyKey = some key ∧
        message = policyAuthorityMessage customer "binance" (bytes cappedBlob.policyText) ∧
        hexDecode authoritySig = some sig
    requirePolicy := some "1"
    policyPubkey := some policyKey
    frame := requestFrame .signBinanceOrder
      ("\"order\":\x7b\"symbol\":\"BTCUSDT\",\"side\":\"buy\"," ++
      "\"qty\":\"0.25\",\"ord_type\":\"limit\",\"price\":\"64000.5\"\x7d")
    request := some limitOrder }

end Sample

open Sample in
/-- The sample order is signed under the floor, with a policy the authority signed. -/
theorem strict_floor_holds_limitOrder :
    ∃ identity policy, resolveIdentity (env signedBlob) limitOrder (enclave ["binance"] .active) =
        some identity ∧
      AuthoritySigned (env signedBlob) policy identity.customerId "binance" ∧
      BindingCaps policy "binance" := by
  have hstep := mem_serverSteps signedBlob (enclave ["binance"] .active) (by decide +kernel) rfl
  obtain ⟨hanswered, htext⟩ : (handle (env signedBlob) {} limitOrder
      (enclave ["binance"] .active)).1.answered = true ∧
      limitOrderText ∈ hmacTexts (handle (env signedBlob) {} limitOrder
        (enclave ["binance"] .active)).1.trace := by decide +kernel
  obtain ⟨secret, hsigned⟩ := mem_hmacTexts.mp htext
  obtain ⟨identity, policy, _, _, _, _, hidentity, -, -, -, hauthority, hcaps⟩ :=
    strict_floor_holds hstep rfl hanswered hsigned rfl (.inr (by decide +kernel))
  exact ⟨identity, policy, hidentity, hauthority, hcaps⟩

end Signer
