import Signer.Sample

/-!
# Pins along runs of loads

On venues that trust on first use, the first signed policy accepted for a customer and venue pins
its key. A legacy secret carries no policy and is not checked against the pin.
-/

namespace Signer

open Text

/-- The policy is signed under the key. -/
structure SignedUnder (env : Env) (policy : Policy) (pk : Bytes) : Prop where
  key_eq : policy.signerPubkey.bind hexDecode = some pk
  verified : ∃ canonical sig, canonicalPolicySignable env policy = some canonical ∧
    policy.policySignature.bind hexDecode = some sig ∧
    env.ed25519Verify pk canonical sig = true

namespace PinStore

variable {env : Env} {pins pins' : PinStore} {key other : String} {pk pinned : Bytes}

theorem verify_ok {policyJson : Bytes} {pkHex sigHex : String}
    (h : verify env policyJson pkHex sigHex = .ok pk) :
    hexDecode pkHex = some pk ∧
      ∃ sig, hexDecode sigHex = some sig ∧ env.ed25519Verify pk policyJson sig = true := by
  unfold verify at h
  rw [ite_error_eq_ok, ite_error_eq_ok] at h
  obtain ⟨-, -, h⟩ := h
  split at h
  · cases h
  · cases h
  rename_i pk' sig hpk hsig
  rw [ite_error_eq_ok, ite_error_eq_ok] at h
  obtain ⟨-, hverify, hsame⟩ := h
  cases hsame
  exact ⟨hpk, sig, hsig, by simpa using hverify⟩

theorem pin_ok (h : pins.pin key pk = (.ok (), pins')) :
    pins'.lookup key = some pk ∧ ∀ pinned, pins.lookup key = some pinned → pinned = pk := by
  unfold pin at h
  split at h
  · rename_i pinned hpinned
    obtain ⟨hsame, rfl⟩ := Prod.mk.inj h
    rw [ite_error_eq_ok] at hsame
    obtain rfl : pinned = pk := not_not.mp hsame.1
    exact ⟨hpinned, fun _ hlookup => Option.mem_unique hlookup hpinned⟩
  · rename_i hnone
    split at h
    · simp at h
    · obtain ⟨-, rfl⟩ := Prod.mk.inj h
      exact ⟨AList.lookup_insert pins, fun _ hlookup => by rw [hnone] at hlookup; cases hlookup⟩

theorem lookup_pin (h : pins.lookup other = some pinned) :
    (pins.pin key pk).2.lookup other = some pinned := by
  unfold pin
  split
  · exact h
  · rename_i hnone
    split
    · exact h
    · have hne : other ≠ key := by
        rintro rfl
        rw [hnone] at h
        cases h
      rw [AList.lookup_insert_ne hne, h]

theorem lookup_verifyAndPin {policyJson : Bytes} {pkHex sigHex : String}
    (h : pins.lookup other = some pinned) :
    (pins.verifyAndPin env key policyJson pkHex sigHex).2.lookup other = some pinned := by
  unfold verifyAndPin
  split
  · exact h
  · exact lookup_pin h

end PinStore

/-! ### Admitting a blob -/

section

variable {env : Env} {policy : Policy} {key other : String} {pins pins' : PinStore} {pinned : Bytes}
  {customerId venue : String} {parsed : ParsedBlob}

theorem admitTofu_ok (h : admitTofu env policy key pins = (.ok (), pins')) :
    (∃ pk, SignedUnder env policy pk ∧ pins'.lookup key = some pk ∧
      ∀ pinned, pins.lookup key = some pinned → pinned = pk) ∨
    (policy.signerPubkey = none ∧ key ∉ pins) := by
  unfold admitTofu at h
  split at h
  · rename_i pkHex sigHex hpk hsig
    left
    split at h
    · simp at h
    · rename_i canonical hcanonical
      obtain ⟨hok, rfl⟩ := Prod.mk.inj h
      unfold PinStore.verifyAndPin at hok ⊢
      rw [mapError_eq_ok] at hok
      split at hok
      · cases hok
      rename_i pk hverify
      obtain ⟨hkey, sig, hdecode, hverified⟩ := PinStore.verify_ok hverify
      obtain ⟨hpinned, hsame⟩ := PinStore.pin_ok (Prod.ext hok rfl)
      exact ⟨pk, ⟨by simp [hpk, hkey], canonical, sig, hcanonical, by simp [hsig, hdecode],
        hverified⟩, hpinned, hsame⟩
  · rename_i hpk hsig
    right
    obtain ⟨hok, -⟩ := Prod.mk.inj h
    rw [mapError_eq_ok, PinStore.requireIfPinned, ite_error_eq_ok] at hok
    exact ⟨hpk, hok.1⟩
  · simp at h

theorem lookup_admitBlob (h : pins.lookup other = some pinned) :
    (admitBlob env customerId venue parsed pins).2.lookup other = some pinned := by
  cases parsed with
  | legacy secret => exact h
  | withPolicy policy secret =>
    simp only [admitBlob]
    split
    · exact h
    · unfold admitTofu
      split
      · split
        · exact h
        · exact PinStore.lookup_verifyAndPin h
      · exact h
      · exact h

end

/-! ### Runs of loads -/

structure LoadCall where
  amb : Ambient := {}
  req : SignRequest
  identity : ResolvedIdentity

def LoadCall.IsFor (call : LoadCall) (customer venue : String) : Prop :=
  call.identity.customerId = customer ∧ venueForAction call.req.action = some venue

def LoadCall.presents (env : Env) (call : LoadCall) (s : Enclave) : Option ParsedBlob := do
  let venue ← venueForAction call.req.action
  let plaintext ←
    ((loadSecretFor env call.amb call.req call.identity venue).run s).result.toOption
  parseBlob env plaintext

def loadCall (env : Env) (call : LoadCall) (s : Enclave) :
    Except LoadSecretError (Option Policy × Json) × Enclave :=
  let outcome := (loadAndParseBlob env call.amb call.req call.identity).run s
  (outcome.result, outcome.state)

abbrev LoadStep := Run.Step LoadCall Enclave (Except LoadSecretError (Option Policy × Json))

def loadSteps (env : Env) (s : Enclave) (calls : List LoadCall) : List LoadStep :=
  Run.steps (loadCall env) s calls

section

variable {env : Env} {call : LoadCall} {s s' : Enclave} {key : String} {pk : Bytes}
  {customer venue : String} {policy : Option Policy} {secret : Json}

theorem lookup_loadCall (h : s.pins.lookup key = some pk) :
    (loadCall env call s).2.pins.lookup key = some pk :=
  loadAndParseBlob_keeps (I := fun x => x.pins.lookup key = some pk)
    ⟨fun _ _ _ hs => hs, fun _ _ _ _ _ _ _ hs => hs⟩ (fun _ _ _ hs => lookup_admitBlob hs) s h

theorem presents_of_returns {plaintext : Bytes} {parsed : ParsedBlob} {t : List Event}
    (hvenue : venueForAction call.req.action = some venue)
    (hload : (loadSecretFor env call.amb call.req call.identity venue).Returns s plaintext s' t)
    (hparse : parseBlob env plaintext = some parsed) : call.presents env s = some parsed := by
  have hresult : ((loadSecretFor env call.amb call.req call.identity venue).run s).result =
      .ok plaintext := by rw [hload]
  simp [LoadCall.presents, hvenue, hresult, Except.toOption, hparse]

theorem loadCall_ok (hfor : call.IsFor customer venue)
    (h : loadCall env call s = (.ok (policy, secret), s')) :
    ∃ parsed, call.presents env s = some parsed ∧ policy = parsed.policy ∧
      admitBlob env customer venue parsed s.pins = (.ok (), s'.pins) := by
  obtain ⟨hresult, hstate⟩ := Prod.mk.inj h
  have hrun : (loadAndParseBlob env call.amb call.req call.identity).Returns s (policy, secret) s'
      ((loadAndParseBlob env call.amb call.req call.identity).run s).trace := by
    rw [Proc.Returns, ← hresult, ← hstate]
  obtain ⟨venue', plaintext, parsed, cache, pins, hvenue, -, hload, hparse, haccept, hr, rfl, -⟩ :=
    loadAndParseBlob_returns.mp hrun
  obtain ⟨rfl, hvenue'⟩ := hfor
  obtain rfl : venue' = venue := Option.mem_unique hvenue hvenue'
  exact ⟨parsed, presents_of_returns hvenue hload hparse, (Prod.mk.inj hr).1, haccept⟩

theorem loadCall_tofu (hfor : call.IsFor customer venue)
    (hpath : (blobFloorStrict (policyRequired env) venue && isMoneyVenue venue) = false)
    (h : loadCall env call s = (.ok (policy, secret), s')) :
    (policy = none ∧ blobFloorStrict (policyRequired env) venue = false ∧
      ∃ legacy, call.presents env s = some (.legacy legacy)) ∨
    ∃ p, policy = some p ∧
      ((∃ pk, SignedUnder env p pk ∧ s'.pins.lookup (tofuKey customer venue) = some pk ∧
        ∀ pinned, s.pins.lookup (tofuKey customer venue) = some pinned → pinned = pk) ∨
      (p.signerPubkey = none ∧ tofuKey customer venue ∉ s.pins)) := by
  obtain ⟨parsed, hpresents, rfl, haccept⟩ := loadCall_ok hfor h
  cases parsed with
  | legacy legacy =>
    simp only [admitBlob, Prod.mk.injEq, ite_error_eq_ok] at haccept
    exact .inl ⟨rfl, by simpa using haccept.1.1, legacy, hpresents⟩
  | withPolicy p secret =>
    simp only [admitBlob, hpath, Bool.false_eq_true, if_false] at haccept
    exact .inr ⟨p, rfl, admitTofu_ok haccept⟩

end

/-- On a venue that trusts on first use, once a signed policy was accepted for a customer,
its key stays pinned, and every blob accepted for that customer and venue carries a policy
signed under it, provided no legacy secret is presented for the pair. -/
theorem tofu_pin_holds {env : Env} {s : Enclave} {calls : List LoadCall}
    {before after : List LoadStep} {step : LoadStep} {customer venue : String} {p : Policy}
    {secret : Json}
    (hpath : (blobFloorStrict (policyRequired env) venue && isMoneyVenue venue) = false)
    (hsplit : loadSteps env s calls = before ++ step :: after)
    (hfor : step.input.IsFor customer venue) (hfirst : step.output = .ok (some p, secret))
    (hsigned : p.signerPubkey.isSome = true)
    (hlegacy : blobFloorStrict (policyRequired env) venue = false → ∀ later ∈ after,
      later.input.IsFor customer venue →
      ∀ legacy, later.input.presents env later.before ≠ some (.legacy legacy)) :
    ∃ pk, SignedUnder env p pk ∧ step.after.pins.lookup (tofuKey customer venue) = some pk ∧
      ∀ later ∈ after, later.before.pins.lookup (tofuKey customer venue) = some pk ∧
        later.after.pins.lookup (tofuKey customer venue) = some pk ∧
        ∀ policy secret, later.input.IsFor customer venue → later.output = .ok (policy, secret) →
          ∃ q, policy = some q ∧ SignedUnder env q pk := by
  have hmachine : ∀ later ∈ loadSteps env s calls,
      loadCall env later.input later.before = (later.output, later.after) :=
    fun later hmem => (Run.mem_steps hmem).2
  have hloaded := hmachine step (by simp [hsplit])
  rw [hfirst] at hloaded
  rcases loadCall_tofu hfor hpath hloaded with ⟨hnone, -⟩ | ⟨q, hq, hpinned⟩
  · cases hnone
  obtain rfl := Option.some.inj hq
  rcases hpinned with ⟨pk, hunder, hlookup, -⟩ | ⟨hunsigned, -⟩
  · have hlater : ∀ later ∈ after, later ∈ loadSteps env s calls := by
      intro later hmem
      simp [hsplit, hmem]
    have hinv := Run.invariant_after
        (I := fun x => x.pins.lookup (tofuKey customer venue) = some pk)
      hsplit hlookup fun later hmem hbefore => by
        have hkept : (loadCall env later.input later.before).2.pins.lookup
            (tofuKey customer venue) =
          some pk := lookup_loadCall hbefore
        rwa [hmachine later (hlater later hmem)] at hkept
    refine ⟨pk, hunder, hlookup, fun later hmem => ⟨(hinv later hmem).1, (hinv later hmem).2, ?_⟩⟩
    intro policy secret' hpair hok
    have hserved := hmachine later (hlater later hmem)
    rw [hok] at hserved
    rcases loadCall_tofu hpair hpath hserved with ⟨-, hopen, legacy, hpresents⟩ | ⟨q, rfl, hq⟩
    · exact absurd hpresents (hlegacy hopen later hmem hpair legacy)
    · rcases hq with ⟨pk', hunder', -, hsame⟩ | ⟨-, hfree⟩
      · obtain rfl := hsame pk (hinv later hmem).1
        exact ⟨q, rfl, hunder'⟩
      · -- an unsigned policy is accepted only where nothing is pinned
        exact absurd (AList.lookup_eq_none.mpr hfree) (by simp [(hinv later hmem).1])
  · simp [hunsigned] at hsigned

namespace Sample

def policySig : String :=
  "47ae2a856bd6ffa0bab3b339e4c90b16c6c216e7f4dca535ab7e1095690dca11" ++
    "502f0410c33569eb0b900127d9f893b31bb6e8be4b4619437252578cfd347d05"

def pinnedPolicy : Policy :=
  { cappedPolicy with signerPubkey := some policyKey, policySignature := some policySig }

def pinnedBlob : Answers :=
  { cappedBlob with
    plaintext := wrappedText (cappedPolicyText
      (",\"signer_pubkey\":\"" ++ policyKey ++ "\",\"policy_signature\":\"" ++ policySig ++ "\""))
    parsed := .withPolicy pinnedPolicy hmacSecret
    verifies := fun key message sig => hexDecode policyKey = some key ∧
      message = bytes (cappedPolicyText "") ∧ hexDecode policySig = some sig }

def bareBase64 : String := "YmFyZQ=="

def pinEnv : Env :=
  { env pinnedBlob with
    base64Decode := fun text =>
      if text = bareBase64 then some (bytes "bare") else (env pinnedBlob).base64Decode text
    kmsDecrypt := fun creds blob ctx =>
      (if blob = bytes "bare" then env bareBlob else env pinnedBlob).kmsDecrypt creds blob ctx
    jsonFromSlice := fun b =>
      ((env bareBlob).jsonFromSlice b).or ((env pinnedBlob).jsonFromSlice b) }

def binanceLoad (ciphertext : String) : LoadCall where
  req := { request .signBinanceOrder with ciphertextBlobBase64 := some ciphertext }
  identity := identity ["binance"] .active

end Sample

open Sample in
/-- A bare key is accepted for a customer and venue whose policy key is pinned. -/
theorem tofu_pin_bypassed :
    ∃ first second : LoadStep,
      loadSteps pinEnv {} [binanceLoad blobBase64, binanceLoad bareBase64] = [first, second] ∧
      blobFloorStrict (policyRequired pinEnv) "binance" = false ∧
      first.input.IsFor customer "binance" ∧
      first.output.toOption.map Prod.fst = some (some pinnedPolicy) ∧
      second.before.pins.lookup (tofuKey customer "binance") = hexDecode policyKey ∧
      second.input.IsFor customer "binance" ∧ second.output.toOption.map Prod.fst = some none :=
  ⟨_, _, rfl, by decide +kernel, ⟨rfl, rfl⟩, by decide +kernel, by decide +kernel, ⟨rfl, rfl⟩,
    by decide +kernel⟩

open Sample in
/-- The signed blob, loaded again, is accepted under the key it pinned. -/
theorem tofu_pin_holds_again :
    ∃ pk, SignedUnder pinEnv pinnedPolicy pk ∧
      ∀ later ∈ (loadSteps pinEnv {} [binanceLoad blobBase64, binanceLoad blobBase64]).tail,
        later.after.pins.lookup (tofuKey customer "binance") = some pk ∧
        ∀ policy secret, later.output = .ok (policy, secret) →
          ∃ q, policy = some q ∧ SignedUnder pinEnv q pk := by
  have hpath : (blobFloorStrict (policyRequired pinEnv) "binance" && isMoneyVenue "binance") =
      false := by decide +kernel
  have hfor : (binanceLoad blobBase64).IsFor customer "binance" := ⟨rfl, rfl⟩
  have hpolicy : (loadCall pinEnv (binanceLoad blobBase64) {}).1.toOption.map Prod.fst =
      some (some pinnedPolicy) := by decide +kernel
  have hpresents : ((binanceLoad blobBase64).presents pinEnv
      (loadCall pinEnv (binanceLoad blobBase64) {}).2).all (fun blob =>
        blob.policy.isSome) = true := by
    decide +kernel
  rcases hload : loadCall pinEnv (binanceLoad blobBase64) {} with ⟨e | ⟨policy, secret⟩, s₁⟩
  · simp [hload, Except.toOption] at hpolicy
  rw [hload] at hpolicy hpresents
  obtain rfl : policy = some pinnedPolicy := Option.some.inj hpolicy
  have hsplit : loadSteps pinEnv {} [binanceLoad blobBase64, binanceLoad blobBase64] =
      [] ++ ⟨binanceLoad blobBase64, {}, .ok (some pinnedPolicy, secret), s₁⟩ ::
        loadSteps pinEnv s₁ [binanceLoad blobBase64] := by
    simp [loadSteps, Run.steps, hload]
  obtain ⟨pk, hunder, -, hlater⟩ := tofu_pin_holds hpath hsplit hfor rfl rfl
    fun _ later hmem _ legacy hlegacy => by
      rw [List.mem_singleton.mp hmem] at hlegacy
      simp [hlegacy, ParsedBlob.policy] at hpresents
  rw [hsplit]
  refine ⟨pk, hunder, fun later hmem => ⟨(hlater later hmem).2.1, fun policy secret' => ?_⟩⟩
  exact (hlater later hmem).2.2 policy secret' (List.mem_singleton.mp hmem ▸ hfor)

end Signer
