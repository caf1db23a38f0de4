import Signer.IntentMessage
import Signer.PolicyReader
import Signer.Sample

/-!
# What the policy authority binds

The authority signs a domain, the customer, the venue and the serialized policy without its three
signature fields, each field behind its length. The serialized policy is read back, so it determines
every clause. The domain differs from that of the intents.
-/

namespace Signer

theorem Policy.toJson_injective : Function.Injective Policy.toJson := by
  intro a b h
  have hread := read_toJson a
  rw [h, read_toJson b] at hread
  exact (Option.some.inj hread).symm

/-! ### Policies have a text -/

theorem hasText_presentMembers {fields : List (String × Option Json)}
    (h : ∀ field ∈ fields, ∀ v ∈ field.2, v.HasText) :
    (Json.object (presentMembers fields)).HasText := by
  refine Json.hasText_object fun m hm => ?_
  obtain ⟨field, hfield, hm⟩ := List.mem_flatMap.mp hm
  cases hvalue : field.2 with
  | none => simp [Policy.member, hvalue] at hm
  | some v =>
    obtain rfl : m = (field.1, v) := by simpa [Policy.member, hvalue] using hm
    exact h field hfield v hvalue

theorem Policy.hasText_strings (items : List String) : (strings items).HasText := by
  refine Json.hasText_array fun v hv => ?_
  obtain ⟨s, -, rfl⟩ := List.mem_map.mp hv
  exact Json.hasText_string s

theorem Policy.hasText_unsigned (n : UInt64) : (unsigned n).HasText := rfl

theorem hasText_array_map {α : Type} {toJson : α → Json} (h : ∀ a, (toJson a).HasText)
    (items : List α) : (Json.array (items.map toJson)).HasText := by
  refine Json.hasText_array fun v hv => ?_
  obtain ⟨a, -, rfl⟩ := List.mem_map.mp hv
  exact h a

theorem X402Policy.hasText_toJson (c : X402Policy) : c.toJson.HasText := by
  rw [toJson_eq]
  refine hasText_presentMembers ?_
  simp [fields, Policy.hasText_unsigned, Json.hasText_string, Policy.hasText_strings]

theorem Permit2Policy.hasText_toJson (c : Permit2Policy) : c.toJson.HasText := by
  rw [toJson_eq]
  refine hasText_presentMembers ?_
  simp [fields, Policy.hasText_unsigned, Json.hasText_string, Policy.hasText_strings]

theorem OrderAssetCap.hasText_toJson (c : OrderAssetCap) : c.toJson.HasText := by
  rw [toJson_eq]
  refine hasText_presentMembers ?_
  simp [fields, Json.hasText_string]

theorem HlOrderCap.hasText_toJson (c : HlOrderCap) : c.toJson.HasText := by
  rw [toJson_eq]
  refine hasText_presentMembers ?_
  simp [fields, Policy.hasText_unsigned, Json.hasText_string]

theorem Policy.hasText_toJson (p : Policy) : p.toJson.HasText := by
  rw [toJson_eq]
  refine hasText_presentMembers ?_
  simp [fields, hasText_unsigned, Json.hasText_string, hasText_strings,
    X402Policy.hasText_toJson, Permit2Policy.hasText_toJson,
    hasText_array_map OrderAssetCap.hasText_toJson, hasText_array_map HlOrderCap.hasText_toJson]

/-! ### The signed message -/

/-- `serde_json::to_vec` on values of strings, integers, lists and objects. -/
def SerializesInjectively (env : Env) : Prop :=
  ∀ v w b, v.HasText → w.HasText → env.jsonToVec v = some b → env.jsonToVec w = some b → v = w

def Policy.withoutSignatures (p : Policy) : Policy :=
  { p with signerPubkey := none, policySignature := none, policyAuthoritySig := none }

theorem policyAuthorityMessage_ne_intent (customerId venue : String) (canonical : Bytes)
    (c : IntentContent) : policyAuthorityMessage customerId venue canonical ≠ c.message := by
  intro h
  have hauthority : policyAuthorityDomain[7]? = some 112 := by decide
  have hintent : agentIntentDomain[7]? = some 97 := by decide
  have hbyte := congrArg (·[7]?) h
  simp only [policyAuthorityMessage, IntentContent.message_eq, agentIntentHeader,
    List.append_assoc] at hbyte
  rw [List.getElem?_append_left (by decide), List.getElem?_append_left (by decide), hauthority,
    hintent] at hbyte
  cases hbyte

/-- The authority's signature binds customer, venue and policy. Equal messages are of one
customer and venue, and of policies that agree in everything but the three signature fields.
These fields change neither the message nor the hash of a policy. No message of the
authority is the message of an intent. -/
theorem policy_authority_binding (env : Env) (hjson : SerializesInjectively env) :
    (∀ (customerId venue customerId' venue' : String) (p p' : Policy) (b b' : Bytes),
      customerId.utf8ByteSize < 2 ^ 32 → venue.utf8ByteSize < 2 ^ 32 → b.length < 2 ^ 32 →
      customerId'.utf8ByteSize < 2 ^ 32 → venue'.utf8ByteSize < 2 ^ 32 → b'.length < 2 ^ 32 →
      canonicalPolicySignable env p = some b → canonicalPolicySignable env p' = some b' →
      policyAuthorityMessage customerId venue b = policyAuthorityMessage customerId' venue' b' →
      customerId = customerId' ∧ venue = venue' ∧ p.withoutSignatures = p'.withoutSignatures) ∧
    (∀ (p : Policy) (pubkey sig authoritySig : Option String),
      canonicalPolicySignable env { p with
        signerPubkey := pubkey, policySignature := sig, policyAuthoritySig := authoritySig } =
          canonicalPolicySignable env p ∧
      computePolicyHash env { p with
        signerPubkey := pubkey, policySignature := sig, policyAuthoritySig := authoritySig } =
          computePolicyHash env p) ∧
    ∀ (customerId venue : String) (b : Bytes) (c : IntentContent),
      policyAuthorityMessage customerId venue b ≠ c.message := by
  refine ⟨?_, fun p pubkey sig authoritySig => ⟨rfl, rfl⟩, policyAuthorityMessage_ne_intent⟩
  intro customerId venue customerId' venue' p p' b b' hc hv hb hc' hv' hb' hp hp' h
  simp only [policyAuthorityMessage, List.append_assoc] at h
  obtain ⟨hcustomer, h⟩ := intentField_append_inj hc hc' (List.append_cancel_left h)
  obtain ⟨hvenue, h⟩ := intentField_append_inj hv hv' h
  rw [← List.append_nil (Text.lengthPrefixed 4 b),
    ← List.append_nil (Text.lengthPrefixed 4 b')] at h
  obtain ⟨rfl, -⟩ := Text.lengthPrefixed_append_inj hb hb' h
  exact ⟨hcustomer, hvenue, Policy.toJson_injective (hjson _ _ _ (Policy.hasText_toJson _)
      (Policy.hasText_toJson _) hp hp')⟩

namespace Sample

def compactEnv : Env := { env cappedBlob with jsonToVec := compactBytes }

theorem compactEnv_serializesInjectively : SerializesInjectively compactEnv :=
  fun _ _ _ _ _ hv hw => compactBytes_inj hv hw

def widerPolicy : Policy where
  orderCaps := some [{ symbol := "BTCUSDT", maxQty := "5", maxNotional := some "40000" }]

theorem canonicalPolicySignable_capped :
    canonicalPolicySignable compactEnv cappedPolicy = some (Text.bytes (cappedPolicyText "")) := by
  decide +kernel

end Sample

open Sample in
/-- A signature over the capped policy is none over a wider one. -/
theorem policy_authority_binding_capped :
    ∃ b b', canonicalPolicySignable compactEnv cappedPolicy = some b ∧
      canonicalPolicySignable compactEnv widerPolicy = some b' ∧
      policyAuthorityMessage customer "binance" b ≠
        policyAuthorityMessage customer "binance" b' := by
  have hwider : (canonicalPolicySignable compactEnv widerPolicy).any (·.length < 2 ^ 32) =
      true := by
    decide +kernel
  obtain ⟨b', hb', hlength⟩ := (Option.any_eq_true _ _).mp hwider
  refine ⟨_, b', canonicalPolicySignable_capped, hb', fun h => ?_⟩
  have hpolicies := ((policy_authority_binding compactEnv compactEnv_serializesInjectively).1
    customer "binance" customer "binance" cappedPolicy widerPolicy _ b' (by decide) (by decide)
    (by decide +kernel) (by decide) (by decide) (by simpa using hlength)
    canonicalPolicySignable_capped hb' h).2.2
  exact absurd hpolicies (by decide)

end Signer
