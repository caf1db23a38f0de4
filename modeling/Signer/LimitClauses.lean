import Signer.Floor
import Signer.Gates
import Signer.LoadHistory

/-!
# The clause a venue takes its limit from

Under the strict floor a money key is loaded only with a cap that can bind an order of its
venue. Each venue has one clause of the policy it takes its limit from: Hyperliquid the caps by
asset, Permit2 its own clause, the others the caps by symbol. The check at loading looks at the
caps by symbol for Permit2 as well, which nothing on that venue's path reads.
-/

namespace Signer

open Text

inductive LimitClause where
  | orders (caps : Option (List OrderAssetCap))
  | assets (caps : Option (List HlOrderCap))
  | allowance (clause : Option Permit2Policy)
  deriving DecidableEq

def limitClause (venue : String) (policy : Policy) : LimitClause :=
  if isHlVenue venue then .assets policy.hlOrderCaps
  else if venue = "permit2" then .allowance policy.permit2
  else .orders policy.orderCaps

def LimitClause.present : LimitClause → Bool
  | .orders caps => nonEmpty caps
  | .assets caps => nonEmpty caps
  | .allowance clause => clause.any fun c => c ≠ {}

/-- Of the three size clauses of a policy, the cap check of the request reads that of the venue
alone. -/
def ReadsLimitClause (env : Env) (req : SignRequest) (venue : String) (policy : Policy) : Prop :=
  ∀ gate caps assets clause, capGate env req = some gate →
    limitClause venue { policy with orderCaps := caps, hlOrderCaps := assets, permit2 := clause } =
      limitClause venue policy →
    gate (some { policy with orderCaps := caps, hlOrderCaps := assets, permit2 := clause }) =
      gate (some policy)

/-- Loading refuses the policy as uncapped exactly if its clause for the venue is missing or
empty. -/
def BindingCheck (env : Env) (amb : Ambient) (req : SignRequest) (identity : ResolvedIdentity)
    (s : Enclave) (venue : String) (policy : Policy) : Prop :=
  ((loadAndParseBlob env amb req identity).run s).result = .error .policyRequired ↔
    (limitClause venue policy).present = false

section

variable {env : Env} {amb : Ambient} {req : SignRequest} {identity : ResolvedIdentity}
  {s s' : Enclave}
  {venue : String} {policy : Policy} {secret : Json} {plaintext : Bytes} {t : List Event}

theorem capGate_reads {gate : Option Policy → Except ErrCode Unit}
    {caps : Option (List OrderAssetCap)}
    {assets : Option (List HlOrderCap)} {clause : Option Permit2Policy}
    (hvenue : venueForAction req.action = some venue) (hmoney : isMoneyVenue venue = true)
    (hgate : capGate env req = some gate)
    (hclause : limitClause venue { policy with orderCaps := caps, hlOrderCaps := assets, permit2 := clause } =
      limitClause venue policy) :
    gate (some { policy with orderCaps := caps, hlOrderCaps := assets, permit2 := clause }) =
      gate (some policy) := by
  -- in each case the clause that the gate reads is the one that stays
  have horders : isHlVenue venue = false → venue ≠ "permit2" → caps = policy.orderCaps := by
    intro hhl hpermit2
    simpa [limitClause, hhl, hpermit2] using hclause
  have hassets : isHlVenue venue = true → assets = policy.hlOrderCaps := by
    intro hhl
    simpa [limitClause, hhl] using hclause
  cases haction : req.action <;>
    simp only [capGate, haction, reduceCtorEq, do_eq_some, pure_eq_some,
      Option.some.injEq] at hgate <;>
    rw [haction, venueForAction, Option.some.injEq] at hvenue <;>
    subst hvenue
  case signX402Eip3009 => exact absurd hmoney (by decide)
  case signPermit2PermitSingle =>
    obtain ⟨p2, -, amount, -, permit, -, rfl⟩ := hgate
    obtain rfl : clause = policy.permit2 := by simpa [limitClause, isHlVenue] using hclause
    rfl
  case signKucoin | signBybit =>
    subst hgate
    rw [horders (by decide) (by decide)]
    rfl
  case signBinance =>
    obtain ⟨method, -, body, -, rfl⟩ := hgate
    rw [horders (by decide) (by decide)]
    rfl
  case signOkx =>
    obtain ⟨method, -, path, -, body, -, rfl⟩ := hgate
    rw [horders (by decide) (by decide)]
    rfl
  case signBinanceRequest =>
    obtain ⟨op, -, route, -, rfl⟩ := hgate
    rw [horders (by decide) (by decide)]
    rfl
  case signBinanceOrder | signOkxOrder | signBinanceCancel | signOkxCancel =>
    obtain ⟨order, -, rfl⟩ := hgate
    rw [horders (by decide) (by decide)]
    rfl
  case signAsterdex =>
    obtain ⟨body, -, rfl⟩ := hgate
    rw [horders (by decide) (by decide)]
    rfl
  all_goals
    obtain ⟨action, -, vault, -, rfl⟩ := hgate
    rw [hassets (by decide)]
    rfl

theorem result_loadAndParseBlob {parsed : ParsedBlob}
    (hvenue : venueForAction req.action = some venue)
    (hallowed : identity.venueAllowed venue = true)
    (hload : (loadSecretFor env amb req identity venue).Returns s plaintext s' t)
    (hparse : parseBlob env plaintext = some parsed) :
    ((loadAndParseBlob env amb req identity).run s).result =
      (admitBlob env identity.customerId venue parsed s'.pins).1.map fun _ =>
        (parsed.policy, parsed.secretJson) := by
  have hrun : (loadSecretFor env amb req identity venue).run s = ⟨.ok plaintext, s', t⟩ := hload
  rw [loadAndParseBlob, hvenue, Proc.ofOption_some_bind, Proc.run_ensure_bind, if_pos hallowed,
    Proc.result_bind, hrun]
  dsimp only [Except.bind]
  rw [hparse, Proc.ofOption_some_bind, Proc.result_bind]
  simp only [Proc.update]
  cases (admitBlob env identity.customerId venue parsed s'.pins).1 <;> rfl

theorem admitStrict_eq_error_iff (hmoney : isMoneyVenue venue = true)
    (hauthority : verifyPolicyAuthority env policy identity.customerId venue = .ok ()) :
    admitStrict env policy identity.customerId venue = .error .policyRequired ↔
      rot3BindingCapPresent venue policy = false := by
  rw [admitStrict, hauthority]
  dsimp only
  rw [rot3UncappedMoneyKeyRejected, hmoney]
  cases rot3BindingCapPresent venue policy <;> simp

theorem rot3BindingCapPresent_eq (hvenue : venue ≠ "permit2") :
    rot3BindingCapPresent venue policy = (limitClause venue policy).present := by
  rw [rot3BindingCapPresent, limitClause, if_neg hvenue]
  cases isHlVenue venue <;> rfl

/-- For an authority-signed policy on the money venue of a request, under the strict floor: the cap
check of the request reads the clause of its venue, and the check at loading asks for that clause
exactly if the venue is not Permit2 or the policy has caps by symbol and an allowance clause both or
neither. -/
theorem bindingCheck_iff (hvenue : venueForAction req.action = some venue)
    (hmoney : isMoneyVenue venue = true)
    (hstrict : blobFloorStrict (policyRequired env) venue = true)
    (hallowed : identity.venueAllowed venue = true)
    (hload : (loadSecretFor env amb req identity venue).Returns s plaintext s' t)
    (hparse : parseBlob env plaintext = some (.withPolicy policy secret))
    (hauthority : verifyPolicyAuthority env policy identity.customerId venue = .ok ()) :
    ReadsLimitClause env req venue policy ∧
      (BindingCheck env amb req identity s venue policy ↔
        (venue = "permit2" →
          nonEmpty policy.orderCaps = (LimitClause.allowance policy.permit2).present)) := by
  have hresult : ((loadAndParseBlob env amb req identity).run s).result = .error .policyRequired ↔
      rot3BindingCapPresent venue policy = false := by
    rw [result_loadAndParseBlob hvenue hallowed hload hparse,
      ← admitStrict_eq_error_iff hmoney hauthority,
      admitBlob, hstrict, hmoney, Bool.and_self, if_pos rfl]
    cases admitStrict env policy identity.customerId venue <;> simp [Except.map]
  refine ⟨fun gate caps assets clause => capGate_reads hvenue hmoney, ?_⟩
  rw [BindingCheck, hresult]
  by_cases hpermit2 : venue = "permit2"
  · subst hpermit2
    have hpresent : (limitClause "permit2" policy).present =
        (LimitClause.allowance policy.permit2).present := rfl
    have hchecked : rot3BindingCapPresent "permit2" policy = nonEmpty policy.orderCaps := rfl
    rw [hchecked, hpresent]
    constructor
    · intro h _
      exact (by decide : ∀ a b : Bool, (a = false ↔ b = false) → a = b) _ _ h
    · intro h
      rw [h rfl]
  · simp [hpermit2, rot3BindingCapPresent_eq hpermit2]

end

namespace Sample

theorem parseBlob_env {a : Answers} {policy : Policy} {secret : Json}
    (h : a.parsed = .withPolicy policy secret) :
    parseBlob (env a) (bytes a.plaintext) = some (.withPolicy policy secret) := by
  simp [parseBlob, env, h, blobValue, Json.get, ParsedBlob.policy, ParsedBlob.secretJson]

def allowancePolicy : Policy where
  permit2 := some
    { chainId := some 1
      verifyingContract := some "0x000000000022d473030f116ddee9f6b43ac78ba3"
      allowedTokens := some ["0xa0b86991c6218b36c1d19d4a2e9eb0ce3606eb48"]
      allowedSpenders := some ["0x3fc91a3afd70395cd496c647d5a6cc9d4b2b7fad"]
      maxAmount := some "1000000"
      maxExpiration := some 1800000000 }

def allowanceMembers : String :=
  "\"permit2\":\x7b\"chain_id\":1,\"verifying_contract\":\"0x000000000022d473030f116ddee9f6b43ac78ba3\"," ++
    "\"allowed_tokens\":[\"0xa0b86991c6218b36c1d19d4a2e9eb0ce3606eb48\"]," ++
    "\"allowed_spenders\":[\"0x3fc91a3afd70395cd496c647d5a6cc9d4b2b7fad\"]," ++
    "\"max_amount\":\"1000000\",\"max_expiration\":1800000000\x7d"

def orderCapsMembers : String :=
  "\"order_caps\":[\x7b\"symbol\":\"BTCUSDT\",\"max_qty\":\"0.5\",\"max_notional\":\"40000\"\x7d]"

def allowanceSig : String :=
  "c8f4517ce5cd24dc85883325d0ae72db8ecafbe81e9e3e59839651e03fd9a000" ++
    "45f1b9a73a41b4c1ce311241d016194c79cdeb8016d1198b34f3d4daeeedfa06"

def orderCapsSig : String :=
  "d58be450710baaa898cffda9f1874d5b020655797ee645806f0a8c16920eb130" ++
    "f5e5e5e70660b29bfae7987e75d44b5b4da5fb5f798a56d34a9dfb63916dea05"

def permit2Blob (policy : Policy) (members sig : String) : Answers where
  plaintext := "\x7b\"policy\":\x7b" ++ members ++ ",\"policy_authority_sig\":\"" ++ sig ++
    "\"\x7d,\"secret\":\x7b\"key\":\"sample-key\",\"secret\":\"sample-secret\"\x7d\x7d"
  parsed := .withPolicy { policy with policyAuthoritySig := some sig } hmacSecret
  policyText := "\x7b" ++ members ++ "\x7d"
  verifies := fun key message signature =>
    hexDecode policyKey = some key ∧
      message = policyAuthorityMessage customer "permit2"
        (bytes ("\x7b" ++ members ++ "\x7d")) ∧
      hexDecode sig = some signature
  requirePolicy := some "1"
  policyPubkey := some policyKey

theorem returns_loadSecretFor_env {a : Answers}
    (hplain : isEnvelope (env a) [98, 108, 111, 98] = false)
    (action : Action) (venues : List String) (venue : String) :
    (loadSecretFor (env a) {} (request action) (identity venues .active) venue).Returns {}
      (bytes a.plaintext) {} [] :=
  returns_loadSecretFor rfl rfl (by decide +kernel) rfl (by decide) hplain rfl

theorem result_loadAndParseBlob_permit2 {policy : Policy} {members sig : String}
    (hplain : isEnvelope (env (permit2Blob policy members sig)) [98, 108, 111, 98] = false) :
    ((loadAndParseBlob (env (permit2Blob policy members sig)) {} (request .signPermit2PermitSingle)
      (identity ["permit2"] .active)).run {}).result =
      (admitBlob (env (permit2Blob policy members sig)) customer "permit2"
        (.withPolicy { policy with policyAuthoritySig := some sig } hmacSecret) {}).1.map fun _ =>
        (some { policy with policyAuthoritySig := some sig }, hmacSecret) :=
  result_loadAndParseBlob rfl (by decide) (returns_loadSecretFor_env hplain _ _ _)
    (parseBlob_env rfl)

end Sample

open Sample in
/-- On Permit2 a key limited by its allowance clause is refused as uncapped, and one without such a
clause is accepted for its caps by symbol. -/
theorem permit2_checked_by_symbol_caps :
    (((loadAndParseBlob (env (permit2Blob allowancePolicy allowanceMembers allowanceSig)) {}
        (request .signPermit2PermitSingle) (identity ["permit2"] .active)).run {}).result =
        .error .policyRequired ∧
      (limitClause "permit2" allowancePolicy).present = true) ∧
    (((loadAndParseBlob (env (permit2Blob cappedPolicy orderCapsMembers orderCapsSig)) {}
        (request .signPermit2PermitSingle) (identity ["permit2"] .active)).run {}).result =
        .ok (some { cappedPolicy with policyAuthoritySig := some orderCapsSig }, hmacSecret) ∧
      (limitClause "permit2" cappedPolicy).present = false) := by
  have hlimited : (admitBlob (env
      (permit2Blob allowancePolicy allowanceMembers allowanceSig)) customer
      "permit2" (.withPolicy { allowancePolicy with policyAuthoritySig := some allowanceSig } hmacSecret)
      {}).1 = .error .policyRequired := by
    decide +kernel
  have hunlimited : (admitBlob (env
      (permit2Blob cappedPolicy orderCapsMembers orderCapsSig)) customer
      "permit2" (.withPolicy { cappedPolicy with policyAuthoritySig := some orderCapsSig } hmacSecret)
      {}).1 = .ok () := by
    decide +kernel
  refine ⟨⟨?_, by decide⟩, ?_, by decide⟩
  · rw [result_loadAndParseBlob_permit2 (by decide +kernel), hlimited]
    rfl
  · rw [result_loadAndParseBlob_permit2 (by decide +kernel), hunlimited]
    rfl

open Sample in
/-- On Binance the check asks for the caps that the sample order is checked against. -/
theorem bindingCheck_signedBlob :
    let policy := { cappedPolicy with policyAuthoritySig := some authoritySig }
    ReadsLimitClause (env signedBlob) limitOrder "binance" policy ∧
      BindingCheck (env signedBlob) {} limitOrder (identity ["binance"] .active) {} "binance"
        policy := by
  intro policy
  have hload : (loadSecretFor (env signedBlob) {} limitOrder (identity ["binance"] .active)
      "binance").Returns {} (bytes signedBlob.plaintext) {} [] :=
    returns_loadSecretFor_env (by decide +kernel) .signBinanceOrder ["binance"] "binance"
  have hparse : parseBlob (env signedBlob) (bytes signedBlob.plaintext) =
      some (.withPolicy policy hmacSecret) := parseBlob_env rfl
  obtain ⟨hreads, hiff⟩ := bindingCheck_iff rfl (by decide) (by decide +kernel) (by decide) hload
    hparse (by decide +kernel)
  exact ⟨hreads, hiff.mpr fun h => absurd h (by decide)⟩

end Signer
