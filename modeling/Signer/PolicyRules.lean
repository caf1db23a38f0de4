import Signer.Enclave

/-!
# Policy rules

Which venue an action belongs to, which venues move money, and the rules of a policy
that apply to every request: actions, methods and paths. A rule that reads a field the
request leaves out is skipped.
-/

namespace Signer

/-- `policy_required`: whether `SIGNER_REQUIRE_POLICY` is on. -/
def policyRequired (env : Env) : Bool :=
  env.requirePolicy.any fun s => ["1", "true", "yes", "on"].any (Text.eqIgnoreAsciiCase s)

def venueForAction : Action → Option String
  | .signBinance | .signBinanceOrder | .signBinanceCancel | .signBinanceRequest => some "binance"
  | .signOkx | .signOkxOrder | .signOkxCancel => some "okx"
  | .signKucoin => some "kucoin"
  | .signBybit => some "bybit"
  | .signHyperliquidMainOrder | .signHyperliquidMainCancel => some "hyperliquid_main"
  | .signHyperliquidTestnetOrder | .signHyperliquidTestnetCancel => some "hyperliquid_testnet"
  | .signAsterdex => some "asterdex"
  | .signX402Eip3009 => some "x402"
  | .signPermit2PermitSingle => some "permit2"
  | .signData => some "data-signing"
  | _ => none

def isMoneyVenue (venue : String) : Bool :=
  venue ∈ ["binance", "binance_futures", "okx", "bybit", "kucoin", "asterdex", "hyperliquid_main",
    "hyperliquid_testnet", "permit2"]

def isHlVenue (venue : String) : Bool := venue ∈ ["hyperliquid_main", "hyperliquid_testnet"]

def floorIsUnconditional (venue : String) : Bool := venue = "hyperliquid_main"

def blobFloorStrict (envStrict : Bool) (venue : String) : Bool :=
  envStrict || floorIsUnconditional venue

def nonEmpty {α : Type} (caps : Option (List α)) : Bool := caps.any fun c => !c.isEmpty

def rot3BindingCapPresent (venue : String) (policy : Policy) : Bool :=
  if isHlVenue venue then nonEmpty policy.hlOrderCaps else nonEmpty policy.orderCaps

def rot3UncappedMoneyKeyRejected (strict : Bool) (venue : String) (policy : Policy) : Bool :=
  strict && isMoneyVenue venue && !rot3BindingCapPresent venue policy

/-- `canonical_policy_signable`: the policy without its signatures, serialized. -/
def canonicalPolicySignable (env : Env) (policy : Policy) : Option Bytes :=
  env.jsonToVec { policy with
    signerPubkey := none, policySignature := none, policyAuthoritySig := none }.toJson

def computePolicyHash (env : Env) (policy : Policy) : Option String :=
  (canonicalPolicySignable env policy).map fun b => Text.hexEncode (env.sha256 b)

/-- `path_matches_prefix`: a match that ends at a path boundary. -/
def pathMatchesPrefix (path start : String) : Bool :=
  if start = "" then false
  else if !Text.startsWith path start then false
  else if start.toList.getLast? = some '/' ∨ start.toList.getLast? = some '?' then true
  else
    match (path.toList.drop start.toList.length).head? with
    | none => true
    | some c => c = '/' ∨ c = '?'

namespace Policy

def allowsMethod (p : Policy) (method : String) : Bool :=
  p.allowedMethods.all fun allowed => method ∈ allowed

def allowsPath (p : Policy) (path : String) : Bool :=
  p.allowedPathPrefixes.all fun starts => starts.any (pathMatchesPrefix path)

def deniesPath (p : Policy) (path : String) : Bool :=
  p.deniedPathPrefixes.any fun starts => starts.any (Text.startsWith path)

end Policy

/-- The rules of `enforce_policy_inner`, in their order. -/
def checkPolicyRules (p : Policy) (req : SignRequest) : Except ErrCode Unit :=
  if p.intentPubkey.isSome ∧ p.orderCaps.isNone then .error .policyRequired
  else if p.allowedActions.any fun allowed => req.action.name ∉ allowed then
    .error .actionNotAllowed
  else if p.intentPubkey.isSome ∧ (venueForAction req.action).any isHlVenue then
    .error .policyRequired
  else if req.method.any fun m => !p.allowsMethod m then .error .actionNotAllowed
  else if req.path.any fun path => !p.allowsPath path then .error .actionNotAllowed
  else if req.path.any fun path => p.deniesPath path then .error .withdrawalNotSignable
  else if p.label.any fun label => 128 < label.length then .error .policyDenied
  else if p.maxRequestsPerMinute.isSome then .error .unimplementedPolicyField
  else .ok ()

/-- `enforce_policy_inner`: the hash of the policy the request is allowed under. -/
def enforcePolicyInner (env : Env) (policy : Option Policy) (req : SignRequest) :
    Except ErrCode (Option String) :=
  match policy with
  | none => .ok none
  | some p =>
    match checkPolicyRules p req with
    | .error code => .error code
    | .ok () =>
      match computePolicyHash env p with
      | none => .error .internalError
      | some hash => .ok (some hash)

/-- `enforce_policy`: a refusal names the policy too. -/
def enforcePolicy (env : Env) (policy : Option Policy) (req : SignRequest) :
    Except SignResponse (Option String) :=
  match enforcePolicyInner env policy req with
  | .ok hash => .ok hash
  | .error code => .error (denyUnder (policy.bind (computePolicyHash env)) code)

/-- Every rule of the policy admits the request, or is skipped. -/
structure RulesPass (p : Policy) (req : SignRequest) : Prop where
  caps_of_intent : p.intentPubkey.isSome = true → p.orderCaps.isSome = true
  action_allowed : ∀ allowed, p.allowedActions = some allowed → req.action.name ∈ allowed
  not_hl_of_intent : p.intentPubkey.isSome = true → ∀ v, venueForAction req.action = some v →
    isHlVenue v = false
  method_allowed : ∀ m, req.method = some m → p.allowsMethod m = true
  path_allowed : ∀ path, req.path = some path → p.allowsPath path = true
  path_not_denied : ∀ path, req.path = some path → p.deniesPath path = false
  label_short : ∀ label, p.label = some label → label.length ≤ 128
  no_rate_clause : p.maxRequestsPerMinute = none

theorem checkPolicyRules_ok_iff {p : Policy} {req : SignRequest} :
    checkPolicyRules p req = .ok () ↔ RulesPass p req := by
  have hany : ∀ {α : Type} {o : Option α} {f : α → Bool},
      ¬ o.any f = true ↔ ∀ a, o = some a → f a = false := by
    intro α o f
    cases o <;> simp
  simp only [checkPolicyRules, ite_error_eq_ok, hany, and_true, not_and, Option.isNone_iff_eq_none,
    ← ne_eq, ← Option.isSome_iff_ne_none, decide_eq_false_iff_not, not_not, not_lt,
    Bool.not_eq_false', Option.not_isSome_iff_eq_none]
  constructor
  · rintro ⟨h₁, h₂, h₃, h₄, h₅, h₆, h₇, h₈⟩
    exact ⟨h₁, h₂, h₃, h₄, h₅, h₆, h₇, h₈⟩
  · rintro ⟨h₁, h₂, h₃, h₄, h₅, h₆, h₇, h₈⟩
    exact ⟨h₁, h₂, h₃, h₄, h₅, h₆, h₇, h₈⟩

theorem enforcePolicy_some_ok_iff {env : Env} {p : Policy} {req : SignRequest}
    {hash : Option String} :
    enforcePolicy env (some p) req = .ok hash ↔
      RulesPass p req ∧ hash.isSome = true ∧ computePolicyHash env p = hash := by
  rw [← checkPolicyRules_ok_iff]
  simp only [enforcePolicy, enforcePolicyInner]
  cases hrules : checkPolicyRules p req with
  | error code => simp
  | ok u =>
    cases hhash : computePolicyHash env p with
    | none => cases hash <;> simp
    | some h => cases hash <;> simp

@[simp]
theorem enforcePolicy_none {env : Env} {req : SignRequest} {hash : Option String} :
    enforcePolicy env none req = .ok hash ↔ hash = none := by
  simp [enforcePolicy, enforcePolicyInner, eq_comm]

end Signer
