import Signer.PolicyTool

/-!
# What the tool signs, the enclave accepts

The two schemas serialize alike, so the enclave reads from the signed file the policy that the tool
signed, and rebuilds the signed bytes.
-/

namespace Signer

open Text

namespace PolicyCli

open Serde

variable {ε : Type} {tree : Json} {seed canonical : Bytes}

/-! ### One schema declared twice -/

def OrderAssetCap.toEnclave (c : OrderAssetCap) : Signer.OrderAssetCap :=
  { symbol := c.symbol, maxQty := c.maxQty, maxNotional := c.maxNotional }

def HlOrderCap.toEnclave (c : HlOrderCap) : Signer.HlOrderCap :=
  { asset := c.asset, maxSize := c.maxSize, maxNotional := c.maxNotional }

def X402Policy.toEnclave (c : X402Policy) : Signer.X402Policy :=
  { chainId := c.chainId, tokenAddress := c.tokenAddress, maxValue := c.maxValue,
    allowedRecipients := c.allowedRecipients }

def Permit2Policy.toEnclave (c : Permit2Policy) : Signer.Permit2Policy :=
  { chainId := c.chainId, verifyingContract := c.verifyingContract,
    allowedTokens := c.allowedTokens, allowedSpenders := c.allowedSpenders,
    maxAmount := c.maxAmount, maxExpiration := c.maxExpiration }

def Policy.toEnclave (p : Policy) : Signer.Policy :=
  { allowedActions := p.allowedActions, allowedMethods := p.allowedMethods,
    allowedPathPrefixes := p.allowedPathPrefixes, deniedPathPrefixes := p.deniedPathPrefixes,
    maxRequestsPerMinute := p.maxRequestsPerMinute, label := p.label,
    allowedAsterdexEndpoints := p.allowedAsterdexEndpoints,
    x402 := p.x402.map X402Policy.toEnclave, permit2 := p.permit2.map Permit2Policy.toEnclave,
    orderCaps := p.orderCaps.map fun caps => caps.map OrderAssetCap.toEnclave,
    allowedVaults := p.allowedVaults,
    hlOrderCaps := p.hlOrderCaps.map fun caps => caps.map HlOrderCap.toEnclave,
    signerPubkey := p.signerPubkey, policySignature := p.policySignature,
    policyAuthoritySig := p.policyAuthoritySig, intentPubkey := p.intentPubkey }

@[simp]
theorem OrderAssetCap.toJson_toEnclave (c : OrderAssetCap) : c.toEnclave.toJson = c.toJson := by
  rw [Signer.OrderAssetCap.toJson_eq]
  rfl

@[simp]
theorem HlOrderCap.toJson_toEnclave (c : HlOrderCap) : c.toEnclave.toJson = c.toJson := by
  rw [Signer.HlOrderCap.toJson_eq]
  rfl

@[simp]
theorem X402Policy.toJson_toEnclave (c : X402Policy) : c.toEnclave.toJson = c.toJson := by
  rw [Signer.X402Policy.toJson_eq]
  rfl

@[simp]
theorem Permit2Policy.toJson_toEnclave (c : Permit2Policy) : c.toEnclave.toJson = c.toJson := by
  rw [Signer.Permit2Policy.toJson_eq]
  rfl

theorem Policy.toJson_toEnclave (p : Policy) : p.toEnclave.toJson = p.toJson := by
  rw [Signer.Policy.toJson_eq, toJson]
  congr 2
  simp [Signer.Policy.fields, fields, toEnclave, Function.comp_def]

theorem Policy.read_enclave (p : Policy) : Signer.Policy.read p.toJson = some p.toEnclave := by
  rw [← toJson_toEnclave]
  exact Signer.Policy.read_toJson p.toEnclave

/-! ### What the tool has parsed has no repeated names -/

theorem OrderAssetCap.distinct_read : Distinct read := by
  intro v c h
  simp only [read, do_eq_some] at h
  obtain ⟨found, hfound, symbol, hsymbol, maxQty, hmaxQty, maxNotional, hmaxNotional, -⟩ := h
  refine noDup_of_record (by decide) hfound fun name hname w hw => ?_
  simp only [List.mem_cons, List.not_mem_nil, or_false] at hname
  rcases hname with rfl | rfl | rfl
  · exact distinct_string.of_mandatory (hw ▸ hsymbol)
  · exact distinct_string.of_mandatory (hw ▸ hmaxQty)
  · exact distinct_string.of_optional (hw ▸ hmaxNotional)

theorem HlOrderCap.distinct_read : Distinct read := by
  intro v c h
  simp only [read, do_eq_some] at h
  obtain ⟨found, hfound, asset, hasset, maxSize, hmaxSize, maxNotional, hmaxNotional, -⟩ := h
  refine noDup_of_record (by decide) hfound fun name hname w hw => ?_
  simp only [List.mem_cons, List.not_mem_nil, or_false] at hname
  rcases hname with rfl | rfl | rfl
  · exact distinct_u64.of_mandatory (hw ▸ hasset)
  · exact distinct_string.of_mandatory (hw ▸ hmaxSize)
  · exact distinct_string.of_optional (hw ▸ hmaxNotional)

theorem X402Policy.distinct_read : Distinct read := by
  intro v c h
  simp only [read, do_eq_some] at h
  obtain ⟨found, hfound, chainId, hchain, token, htoken, maxValue, hmax, recipients, hrecipients,
    -⟩ := h
  refine noDup_of_record (by decide) hfound fun name hname w hw => ?_
  simp only [List.mem_cons, List.not_mem_nil, or_false] at hname
  rcases hname with rfl | rfl | rfl | rfl
  · exact distinct_u64.of_optional (hw ▸ hchain)
  · exact distinct_string.of_optional (hw ▸ htoken)
  · exact distinct_string.of_optional (hw ▸ hmax)
  · exact distinct_string.list.of_optional (hw ▸ hrecipients)

theorem Permit2Policy.distinct_read : Distinct read := by
  intro v c h
  simp only [read, do_eq_some] at h
  obtain ⟨found, hfound, chainId, hchain, contract, hcontract, tokens, htokens, spenders, hspenders,
    maxAmount, hmax, expiration, hexpiration, -⟩ := h
  refine noDup_of_record (by decide) hfound fun name hname w hw => ?_
  simp only [List.mem_cons, List.not_mem_nil, or_false] at hname
  rcases hname with rfl | rfl | rfl | rfl | rfl | rfl
  · exact distinct_u64.of_optional (hw ▸ hchain)
  · exact distinct_string.of_optional (hw ▸ hcontract)
  · exact distinct_string.list.of_optional (hw ▸ htokens)
  · exact distinct_string.list.of_optional (hw ▸ hspenders)
  · exact distinct_string.of_optional (hw ▸ hmax)
  · exact distinct_u64.of_optional (hw ▸ hexpiration)

theorem Policy.distinct_read : Distinct read := by
  intro v c h
  obtain ⟨found, hfound, h⟩ := Option.bind_eq_some_iff.mp h
  obtain ⟨actions, hactions, h⟩ := Option.bind_eq_some_iff.mp h
  obtain ⟨methods, hmethods, h⟩ := Option.bind_eq_some_iff.mp h
  obtain ⟨allowed, hallowed, h⟩ := Option.bind_eq_some_iff.mp h
  obtain ⟨denied, hdenied, h⟩ := Option.bind_eq_some_iff.mp h
  obtain ⟨minute, hminute, h⟩ := Option.bind_eq_some_iff.mp h
  obtain ⟨label, hlabel, h⟩ := Option.bind_eq_some_iff.mp h
  obtain ⟨endpoints, hendpoints, h⟩ := Option.bind_eq_some_iff.mp h
  obtain ⟨x402, hx402, h⟩ := Option.bind_eq_some_iff.mp h
  obtain ⟨permit2, hpermit2, h⟩ := Option.bind_eq_some_iff.mp h
  obtain ⟨orderCaps, horderCaps, h⟩ := Option.bind_eq_some_iff.mp h
  obtain ⟨vaults, hvaults, h⟩ := Option.bind_eq_some_iff.mp h
  obtain ⟨hlCaps, hhlCaps, h⟩ := Option.bind_eq_some_iff.mp h
  obtain ⟨pubkey, hpubkey, h⟩ := Option.bind_eq_some_iff.mp h
  obtain ⟨signature, hsignature, h⟩ := Option.bind_eq_some_iff.mp h
  obtain ⟨authority, hauthority, h⟩ := Option.bind_eq_some_iff.mp h
  obtain ⟨intent, hintent, -⟩ := Option.bind_eq_some_iff.mp h
  refine noDup_of_record (by decide) hfound fun name hname w hw => ?_
  simp only [List.mem_cons, List.not_mem_nil, or_false] at hname
  rcases hname with rfl | rfl | rfl | rfl | rfl | rfl | rfl | rfl | rfl | rfl | rfl | rfl | rfl |
    rfl | rfl | rfl
  · exact distinct_string.list.of_optional (hw ▸ hactions)
  · exact distinct_string.list.of_optional (hw ▸ hmethods)
  · exact distinct_string.list.of_optional (hw ▸ hallowed)
  · exact distinct_string.list.of_optional (hw ▸ hdenied)
  · exact distinct_u32.of_optional (hw ▸ hminute)
  · exact distinct_string.of_optional (hw ▸ hlabel)
  · exact distinct_string.list.of_optional (hw ▸ hendpoints)
  · exact X402Policy.distinct_read.of_optional (hw ▸ hx402)
  · exact Permit2Policy.distinct_read.of_optional (hw ▸ hpermit2)
  · exact OrderAssetCap.distinct_read.list.of_optional (hw ▸ horderCaps)
  · exact distinct_string.list.of_optional (hw ▸ hvaults)
  · exact HlOrderCap.distinct_read.list.of_optional (hw ▸ hhlCaps)
  · exact distinct_string.of_optional (hw ▸ hpubkey)
  · exact distinct_string.of_optional (hw ▸ hsignature)
  · exact distinct_string.of_optional (hw ▸ hauthority)
  · exact distinct_string.of_optional (hw ▸ hintent)

/-! ### Nulls -/

theorem names_stripMembers (ms : List (String × Json)) :
    ((stripMembers ms).map (·.1)).Sublist (ms.map (·.1)) := by
  induction ms with
  | nil => exact List.Sublist.refl _
  | cons m ms ih =>
    obtain ⟨name, v⟩ := m
    cases v with
    | null => exact ih.cons _
    | _ => exact ih.cons_cons _

mutual

theorem noDup_stripJsonNulls : ∀ v : Json, v.noDup = true → (stripJsonNulls v).noDup = true
  | .null, h | .bool _, h | .number _, h | .string _, h => h
  | .array vs, h => noDupItems_stripItems vs h
  | .object ms, h => by
    rw [Json.noDup, Bool.and_eq_true, decide_eq_true_eq] at h
    rw [stripJsonNulls, Json.noDup, Bool.and_eq_true, decide_eq_true_eq]
    exact ⟨h.1.sublist (names_stripMembers ms), noDupMembers_stripMembers ms h.2⟩

theorem noDupItems_stripItems : ∀ vs : List Json, Json.noDupItems vs = true →
    Json.noDupItems (stripItems vs) = true
  | [], _ => rfl
  | v :: vs, h => by
    rw [Json.noDupItems, Bool.and_eq_true] at h
    rw [stripItems, Json.noDupItems, noDup_stripJsonNulls v h.1, noDupItems_stripItems vs h.2]
    rfl

theorem noDupMembers_stripMembers : ∀ ms : List (String × Json), Json.noDupMembers ms = true →
    Json.noDupMembers (stripMembers ms) = true
  | [], _ => rfl
  | (_, .null) :: ms, h => noDupMembers_stripMembers ms h
  | (name, v) :: ms, h => by
    rw [Json.noDupMembers, Bool.and_eq_true] at h
    have hms := noDupMembers_stripMembers ms h.2
    have hv := noDup_stripJsonNulls v h.1
    cases v with
    | null => exact hms
    | _ =>
      rw [stripMembers, Json.noDupMembers, hv, hms]
      · rfl
      · nofun

end

theorem mem_stripMembers {ms : List (String × Json)} {name : String} {v : Json}
    (hmem : (name, v) ∈ ms) (hnull : v ≠ .null) : (name, stripJsonNulls v) ∈ stripMembers ms := by
  induction ms with
  | nil => cases hmem
  | cons m ms ih =>
    obtain ⟨other, w⟩ := m
    rcases List.mem_cons.mp hmem with heq | hlater
    · cases heq
      cases v with
      | null => exact absurd rfl hnull
      | _ => exact List.mem_cons_self
    · cases w with
      | null => exact ih hlater
      | _ => exact List.mem_cons_of_mem _ (ih hlater)

/-! ### What the tool has done when it has signed -/

section

variable {tool : WrapEnv} {privHex customerId venue : String} {policyBytes written : Bytes}

theorem orError_eq_ok {α : Type} {e : ε} {o : Option α} {a : α} :
    orError e o = .ok a ↔ o = some a := by
  cases o <;> simp [orError]

theorem bailIf_eq_ok {condition : Bool} {e : ε} :
    bailIf condition e = .ok () ↔ condition = false := by
  cases condition <;> simp [bailIf]

def Policy.signed (tool : WrapEnv) (seed : Bytes) (customerId venue : String) (canonical : Bytes)
    (p : Policy) : Policy :=
  { p with
    policyAuthoritySig := some (hexEncode
      (tool.ed25519Sign seed (policyAuthorityMessage customerId venue canonical))) }

/-- What `policy-sign` has read, checked and written. -/
structure SignedAs (tool : WrapEnv) (seed policyBytes : Bytes) (customerId venue : String)
    (written : Bytes) (tree : Json) (policy : Policy) (canonical : Bytes) : Prop where
  parsed : tool.treeFromSlice policyBytes = some tree
  read : Policy.read tree = some policy
  unsigned : policy.policyAuthoritySig = none
  compared : eqv (stripJsonNulls (value tree)) policy.toJson = true
  serialized : policyCanonicalSignable tool policy = some canonical
  written : tool.toVecPretty (policy.signed tool seed customerId venue canonical).toJson =
    some written

variable {policy : Policy}

theorem compared_of_assertPolicyRoundTrip
    (hparsed : tool.treeFromSlice policyBytes = some tree)
    (h : assertPolicyRoundTrip tool policyBytes policy = .ok ()) :
    eqv (stripJsonNulls (value tree)) policy.toJson = true := by
  simp only [assertPolicyRoundTrip, hparsed, bailIf_eq_ok, Bool.not_eq_false'] at h
  exact h

theorem policySign_ok (h : policySign tool privHex policyBytes customerId venue = .ok written) :
    ∃ seed tree policy canonical, hexDecodeExact 32 (trim privHex) = some seed ∧
      SignedAs tool seed policyBytes customerId venue written tree policy canonical := by
  obtain ⟨seed, hseed, h⟩ := bind_eq_ok.mp h
  obtain ⟨policy, hpolicy, h⟩ := bind_eq_ok.mp h
  obtain ⟨tree, htree, hread⟩ := Option.bind_eq_some_iff.mp (orError_eq_ok.mp hpolicy)
  obtain ⟨_, hunsigned, h⟩ := bind_eq_ok.mp h
  obtain ⟨_, hcompared, h⟩ := bind_eq_ok.mp h
  obtain ⟨_, -, h⟩ := bind_eq_ok.mp h
  obtain ⟨sig, hsig, h⟩ := bind_eq_ok.mp h
  obtain ⟨canonical, hcanonical, hhex⟩ := Option.bind_eq_some_iff.mp (orError_eq_ok.mp hsig)
  cases hhex
  have hnone : policy.policyAuthoritySig = none :=
    Option.isSome_eq_false_iff.mp (bailIf_eq_ok.mp hunsigned) |> Option.isNone_iff_eq_none.mp
  exact ⟨seed, tree, policy, canonical, orError_eq_ok.mp hseed, htree, hread, hnone,
    compared_of_assertPolicyRoundTrip htree hcompared, hcanonical, orError_eq_ok.mp h⟩

theorem policySign_of_signedAs
    (hseed : hexDecodeExact 32 (trim privHex) = some seed)
    (h : SignedAs tool seed policyBytes customerId venue written tree policy canonical)
    (hsane : sanityCheckPolicy policy = .ok ()) :
    policySign tool privHex policyBytes customerId venue = .ok written := by
  have hpolicy : (tool.treeFromSlice policyBytes).bind Policy.read = some policy := by
    rw [h.parsed, Option.bind_some, h.read]
  have hround : assertPolicyRoundTrip tool policyBytes policy = .ok () := by
    simp [assertPolicyRoundTrip, h.parsed, h.compared, bailIf]
  have hsig : signPolicyAuthority tool policy customerId venue seed = some (hexEncode
      (tool.ed25519Sign seed (policyAuthorityMessage customerId venue canonical))) := by
    simp [signPolicyAuthority, h.serialized]
  have hwritten := h.written
  rw [Policy.signed] at hwritten
  simp only [policySign, hseed, hpolicy, h.unsigned, hround, hsane, hsig, hwritten, orError, bailIf,
    bind, Except.bind, mapError_ok, Option.isSome_none, Bool.false_eq_true, if_false]

/-! ### Nothing is lost -/

theorem mem_fields_signed {name : String} {w : Json} (seed canonical : Bytes)
    (hunsigned : policy.policyAuthoritySig = none) (h : (name, some w) ∈ policy.fields) :
    (name, some w) ∈ (policy.signed tool seed customerId venue canonical).fields := by
  let before := policy.fields.take 14
  let behind := policy.fields.drop 15
  have hold : policy.fields = before ++
      ("policy_authority_sig", policy.policyAuthoritySig.map .string) :: behind := rfl
  have hnew : (policy.signed tool seed customerId venue canonical).fields = before ++
      ("policy_authority_sig", some (.string (hexEncode
        (tool.ed25519Sign seed (policyAuthorityMessage customerId venue canonical))))) ::
      behind := rfl
  rw [hold, hunsigned, List.mem_append, List.mem_cons] at h
  rw [hnew, List.mem_append, List.mem_cons]
  rcases h with hbefore | hauthority | hbehind
  · exact .inl hbefore
  · cases hauthority
  · exact .inr (.inr hbehind)

theorem SignedAs.keeps
    (h : SignedAs tool seed policyBytes customerId venue written tree policy canonical) :
    ∃ members, tree = .object members ∧ ∀ name v, (name, v) ∈ members → v ≠ .null →
      ∃ w, (policy.signed tool seed customerId venue canonical).toEnclave.toJson.get name = some w ∧
        (stripJsonNulls v).Same w := by
  have hdup : tree.noDup = true := Policy.distinct_read h.read
  have hsame : (stripJsonNulls tree).Same policy.toJson := by
    refine same_of_eqv _ _ ?_ (noDup_stripJsonNulls tree hdup)
    rw [← value_of_noDup tree hdup]
    exact h.compared
  cases tree with
  | object members =>
    refine ⟨members, rfl, fun name v hmem hnull => ?_⟩
    obtain ⟨w, hw, hvw⟩ := mem_of_same hsame (mem_stripMembers hmem hnull)
    refine ⟨w, ?_, hvw⟩
    have hfield : (name, some w) ∈ (policy.signed tool seed customerId venue canonical).fields :=
      mem_fields_signed seed canonical h.unsigned (mem_presentMembers.mp hw)
    rw [Policy.toJson_toEnclave]
    refine lookup_of_mem (nodup_presentMembers ?_) (mem_presentMembers.mpr hfield)
    show Signer.Policy.names.Nodup
    decide
  | _ => cases hsame

/-! ### What is signed verifies -/

/-- Tool and enclave serialize alike, and Ed25519 verifies what it signed. -/
structure AuthorityLaws (tool : WrapEnv) (env : Env) (seed : Bytes) : Prop where
  toVec_eq : tool.toVec = env.jsonToVec
  read_back : ∀ (p : Policy) text, tool.toVecPretty p.toJson = some text →
    tool.treeFromSlice text = some p.toJson
  publicKey_valid : env.ed25519KeyValid (tool.ed25519PublicKey seed) = true
  length_sign : ∀ message, (tool.ed25519Sign seed message).length = 64
  verify_sign : ∀ message,
    env.ed25519Verify (tool.ed25519PublicKey seed) message (tool.ed25519Sign seed message) = true

theorem canonicalPolicySignable_signed {env : Env}
    (htoVec : tool.toVec = env.jsonToVec) :
    canonicalPolicySignable env (policy.signed tool seed customerId venue canonical).toEnclave =
      policyCanonicalSignable tool policy := by
  rw [canonicalPolicySignable, policyCanonicalSignable, htoVec, ← Policy.toJson_toEnclave]
  rfl

end

end PolicyCli

section

variable {env : Env} {policy : Policy} {customerId venue : String}

theorem policyAuthorityVk_of_baked {bakedHex : String} {key : Bytes}
    (hbaked : env.policyPubkey = some bakedHex) (hkey : hexDecodeExact 32 bakedHex = some key)
    (hvalid : env.ed25519KeyValid key = true) : policyAuthorityVk env = .ok key := by
  have hnonempty : bakedHex ≠ "" := by
    rintro rfl
    rw [show hexDecodeExact 32 "" = none by decide] at hkey
    cases hkey
  have hfilter : (some bakedHex).filter (fun s => s ≠ "") = some bakedHex := by simp [hnonempty]
  simp only [policyAuthorityVk, hbaked, hfilter, hkey, hvalid, if_true]

theorem verifyPolicyAuthority_of_signed {vk sig canonical : Bytes} {sigHex : String}
    (hvk : policyAuthorityVk env = .ok vk) (hsigHex : policy.policyAuthoritySig = some sigHex)
    (hsig : hexDecodeExact 64 sigHex = some sig)
    (hcanonical : canonicalPolicySignable env policy = some canonical)
    (hverify : env.ed25519Verify vk (policyAuthorityMessage customerId venue canonical) sig =
      true) : verifyPolicyAuthority env policy customerId venue = .ok () := by
  simp only [verifyPolicyAuthority, hvk, hsigHex, hsig, hcanonical, hverify, if_true]

end

/-- Whenever `policy-sign` succeeds, the enclave reads the policy from the file that was written,
its signable bytes are those that were signed, and the authority's signature verifies under the
public key of the seed. Every member of the given text that is not null is a clause of the policy
the enclave has read, with the same value up to nulls and the order of members. -/
theorem signed_policy_verifies {tool : PolicyCli.WrapEnv} {env : Env} {seed : Bytes}
    {privHex bakedHex customerId venue : String} {policyText written : Bytes}
    (hlaws : PolicyCli.AuthorityLaws tool env seed)
    (hseed : hexDecodeExact 32 (trim privHex) = some seed)
    (hbaked : env.policyPubkey = some bakedHex)
    (hkey : hexDecodeExact 32 bakedHex = some (tool.ed25519PublicKey seed))
    (hsign : PolicyCli.policySign tool privHex policyText customerId venue = .ok written) :
    ∃ members parsed policy canonical,
      tool.treeFromSlice policyText = some (.object members) ∧
      PolicyCli.Policy.read (.object members) = some parsed ∧
      (tool.treeFromSlice written).bind Policy.read = some policy ∧
      PolicyCli.policyCanonicalSignable tool parsed = some canonical ∧
      canonicalPolicySignable env policy = some canonical ∧
      policy.policyAuthoritySig = some (hexEncode (tool.ed25519Sign seed
        (PolicyCli.policyAuthorityMessage customerId venue canonical))) ∧
      verifyPolicyAuthority env policy customerId venue = .ok () ∧
      ∀ name v, (name, v) ∈ members → v ≠ .null →
        ∃ w, policy.toJson.get name = some w ∧ (PolicyCli.stripJsonNulls v).Same w := by
  obtain ⟨seed', tree, parsed, canonical, hseed', hsigned⟩ := PolicyCli.policySign_ok hsign
  obtain rfl : seed' = seed := Option.some.inj (hseed'.symm.trans hseed)
  obtain ⟨members, rfl, hkeeps⟩ := hsigned.keeps
  have hcanonical : canonicalPolicySignable env
      (parsed.signed tool seed' customerId venue canonical).toEnclave = some canonical := by
    rw [PolicyCli.canonicalPolicySignable_signed hlaws.toVec_eq]
    exact hsigned.serialized
  have hread : (tool.treeFromSlice written).bind Policy.read =
      some (parsed.signed tool seed' customerId venue canonical).toEnclave := by
    rw [hlaws.read_back _ _ hsigned.written, Option.bind_some]
    exact PolicyCli.Policy.read_enclave _
  have hvk : policyAuthorityVk env = .ok (tool.ed25519PublicKey seed') :=
    policyAuthorityVk_of_baked hbaked hkey hlaws.publicKey_valid
  have hsig : hexDecodeExact 64 (hexEncode (tool.ed25519Sign seed'
      (PolicyCli.policyAuthorityMessage customerId venue canonical))) = some (tool.ed25519Sign seed'
      (PolicyCli.policyAuthorityMessage customerId venue canonical)) := by
    rw [hexDecodeExact_hexEncode, if_pos (hlaws.length_sign _)]
  -- the tool's message is the enclave's
  have hverify := verifyPolicyAuthority_of_signed hvk rfl hsig hcanonical
    (hlaws.verify_sign (policyAuthorityMessage customerId venue canonical))
  exact ⟨members, parsed, _, canonical, hsigned.parsed, hsigned.read, hread, hsigned.serialized,
    hcanonical, rfl, hverify, hkeeps⟩

namespace PolicyCli.Sample

def authorityPublicKey : Bytes :=
  beBytes 32 0x8a88e3dd7409f195fd52db2d3cba5d72ca6709bf1d94121bf3748801b40f6f5c

def policyText : Bytes :=
  bytes <| "\x7b\"order_caps\":[\x7b\"max_qty\":\"0.5\",\"symbol\":\"BTCUSDT\"\x7d]," ++
    "\"label\":null,\"allowed_actions\":[\"sign_binance_order\"]\x7d"

def policyTree : Json :=
  .object [("order_caps", .array [.object [("max_qty", .string "0.5"),
      ("symbol", .string "BTCUSDT")]]),
    ("label", .null), ("allowed_actions", .array [.string "sign_binance_order"])]

def policy : Policy where
  allowedActions := some ["sign_binance_order"]
  orderCaps := some [{ symbol := "BTCUSDT", maxQty := "0.5" }]

def canonical : Bytes :=
  bytes <| "\x7b\"allowed_actions\":[\"sign_binance_order\"]," ++
    "\"order_caps\":[\x7b\"symbol\":\"BTCUSDT\",\"max_qty\":\"0.5\"\x7d]\x7d"

def signature : Bytes :=
  beBytes 32 0x39a6ba0495f14ec20dfed61300790f56a8f6f94e32ecdf2fcf7a9916249b26e1 ++
    beBytes 32 0x0f6e4a76a97dd71c67a077fcd5d43ec5874bfbd0a2f215a5d6a6b6989e47c40a

def signedText : Bytes :=
  bytes <| "\x7b\n  \"allowed_actions\": [\n    \"sign_binance_order\"\n  ],\n" ++
    "  \"order_caps\": [\n    \x7b\n      \"symbol\": \"BTCUSDT\",\n      \"max_qty\": \"0.5\"\n" ++
    "    \x7d\n  ],\n  \"policy_authority_sig\": " ++
    "\"39a6ba0495f14ec20dfed61300790f56a8f6f94e32ecdf2fcf7a9916249b26e1" ++
    "0f6e4a76a97dd71c67a077fcd5d43ec5874bfbd0a2f215a5d6a6b6989e47c40a\"\n\x7d"

def signedPolicy : Policy := { policy with policyAuthoritySig := some (hexEncode signature) }

def tool : WrapEnv where
  treeFromSlice text :=
    if text = policyText then some policyTree
    else if text = signedText then some signedPolicy.toJson else none
  toVec := compactBytes
  toVecPretty json :=
    if Signer.Policy.read json = some signedPolicy.toEnclave then some signedText else none
  ed25519PublicKey _ := authorityPublicKey
  ed25519Sign _ message :=
    if message = policyAuthorityMessage "acme" "binance" canonical then signature
    else List.replicate 64 0
  aesGcmEncrypt _ _ _ _ := none
  base64Encode _ := ""
  base64Decode _ := none

def env : Env :=
  { Signer.Sample.env Signer.Sample.bareBlob with
    policyPubkey := some (hexEncode authorityPublicKey)
    jsonToVec := compactBytes
    ed25519KeyValid := fun key => key = authorityPublicKey
    ed25519Verify := fun key message sig =>
      key = authorityPublicKey ∧ sig = tool.ed25519Sign [] message }

def seed : Bytes := List.replicate 32 1

theorem laws : AuthorityLaws tool env seed where
  toVec_eq := rfl
  read_back p text h := by
    simp only [tool, Option.ite_none_right_eq_some, Option.some.injEq] at h
    obtain ⟨hread, rfl⟩ := h
    have hpolicy : p.toEnclave = signedPolicy.toEnclave :=
      Option.mem_unique p.read_enclave hread
    have hjson : p.toJson = signedPolicy.toJson := by
      rw [← p.toJson_toEnclave, hpolicy, signedPolicy.toJson_toEnclave]
    have hother : signedText ≠ policyText := bytes_injective.ne (by decide)
    simp only [tool, hjson, if_neg hother, if_true]
  publicKey_valid := by simp only [env, tool, decide_true]
  length_sign message := by
    simp only [tool]
    split <;> rfl
  verify_sign message := by simp only [env, tool, and_self, decide_true]

theorem sign_canonical (seed : Bytes) :
    tool.ed25519Sign seed (policyAuthorityMessage "acme" "binance" canonical) = signature := by
  simp only [tool, if_true]

theorem signedAs :
    SignedAs tool seed policyText "acme" "binance" signedText policyTree policy canonical where
  parsed := by simp only [tool, if_true]
  read := by decide +kernel
  unsigned := rfl
  compared := by decide +kernel
  serialized := by decide +kernel
  written := by
    have hsigned : policy.signed tool seed "acme" "binance" canonical = signedPolicy := by
      rw [Policy.signed, sign_canonical, signedPolicy]
    rw [hsigned]
    simp only [tool, signedPolicy.read_enclave, if_true]

theorem hexDecodeExact_seed :
    hexDecodeExact 32 (trim (hexEncode seed)) = some seed := by
  rw [hexDecodeExact_trim_hexEncode, if_pos (show seed.length = 32 from rfl)]

theorem policySign_policyText :
    policySign tool (hexEncode seed) policyText "acme" "binance" = .ok signedText :=
  policySign_of_signedAs hexDecodeExact_seed signedAs (by decide +kernel)

end PolicyCli.Sample

open PolicyCli.Sample in
/-- The policy of the sample is signed, and verifies. -/
theorem signed_policy_verifies_capped :
    PolicyCli.policySign tool (hexEncode seed) policyText "acme" "binance" = .ok signedText ∧
    ∃ members parsed policy canonical,
      tool.treeFromSlice policyText = some (.object members) ∧
      PolicyCli.Policy.read (.object members) = some parsed ∧
      (tool.treeFromSlice signedText).bind Policy.read = some policy ∧
      PolicyCli.policyCanonicalSignable tool parsed = some canonical ∧
      canonicalPolicySignable env policy = some canonical ∧
      policy.policyAuthoritySig = some (hexEncode (tool.ed25519Sign seed
        (PolicyCli.policyAuthorityMessage "acme" "binance" canonical))) ∧
      verifyPolicyAuthority env policy "acme" "binance" = .ok () ∧
      ∀ name v, (name, v) ∈ members → v ≠ .null →
        ∃ w, policy.toJson.get name = some w ∧ (PolicyCli.stripJsonNulls v).Same w := by
  have hkey : hexDecodeExact 32 (hexEncode authorityPublicKey) =
      some authorityPublicKey := by
    rw [hexDecodeExact_hexEncode, if_pos (show authorityPublicKey.length = 32 from rfl)]
  exact ⟨policySign_policyText, signed_policy_verifies laws hexDecodeExact_seed rfl hkey
    policySign_policyText⟩

end Signer
