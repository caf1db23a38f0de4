import Signer.Gates
import Signer.PolicyBinding
import Signer.Text.Hex

/-!
# What a request digest determines

A receipt names a request by a digest of its fields, in which an absent field and an empty one are
the same. Two requests with one digest input agree up to that in every field the digest covers, and
the gates of the handlers treat them alike where they do not look at the presence of a field: the
method and path rules do. The nonce of a cancel's intent is not covered.
-/

namespace Signer

open Text

/-- The fields `request_digest_v1` hashes, in their order. -/
def digestFields (env : Env) (req : SignRequest) : List Bytes :=
  [bytes req.action.name, bytes (req.method.getD ""), bytes (req.path.getD ""),
    bytes (req.query.getD ""), bytes (req.body.getD ""), bytes (req.op.getD ""),
    bytes (req.payload.getD ""), bytes (req.timestampMs.elim "" fun x => x.toNat.repr),
    (req.hlAction.bind env.jsonToVec).getD [], bytes (req.nonce.elim "" fun x => x.toNat.repr),
    bytes (req.vaultAddress.getD ""),
    ((req.order.map OrderRequest.toJson).bind env.jsonToVec).getD [],
    ((req.cancel.map CancelRequest.toJson).bind env.jsonToVec).getD [],
    ((req.x402.map X402Request.toJson).bind env.jsonToVec).getD [],
    ((req.permit2.map Permit2Request.toJson).bind env.jsonToVec).getD [], bytes (req.data.getD "")]

theorem requestDigestInput_eq (env : Env) (req : SignRequest) :
    requestDigestInput env req = (digestFields env req).flatMap digestField := by
  simp [requestDigestInput, digestFields, digestString, digestNumber, digestJson]

theorem flatMap_digestField_inj {fields fields' : List Bytes}
    (hlength : fields.length = fields'.length) (hfits : ∀ b ∈ fields, b.length < 2 ^ 64)
    (hfits' : ∀ b ∈ fields', b.length < 2 ^ 64)
    (h : fields.flatMap digestField = fields'.flatMap digestField) : fields = fields' := by
  induction fields generalizing fields' with
  | nil => simpa [eq_comm] using hlength
  | cons b fields ih =>
    cases fields' with
    | nil => simp at hlength
    | cons b' fields' =>
      rw [List.forall_mem_cons] at hfits hfits'
      have hfront : lengthPrefixed 8 b ++ fields.flatMap digestField =
          lengthPrefixed 8 b' ++ fields'.flatMap digestField := h
      obtain ⟨rfl, hrest⟩ :=
        lengthPrefixed_append_inj (by simpa using hfits.1) (by simpa using hfits'.1) hfront
      rw [ih (by simpa using hlength) hfits.2 hfits'.2 hrest]

/-! ### Fields -/

theorem optionalString_injective : Function.Injective optionalString := by
  rintro (_ | s) (_ | s') h <;> simp_all [optionalString]

theorem unsigned_injective : Function.Injective Policy.unsigned := by
  intro n m h
  simpa [Policy.unsigned] using h

theorem OrderRequest.toJson_injective : Function.Injective OrderRequest.toJson := by
  rintro ⟨⟩ ⟨⟩ h
  simpa [OrderRequest.toJson, optionalString_injective.eq_iff] using h

theorem CancelRequest.toJson_injective : Function.Injective CancelRequest.toJson := by
  rintro ⟨⟩ ⟨⟩ h
  simpa [CancelRequest.toJson] using h

theorem X402Request.toJson_injective : Function.Injective X402Request.toJson := by
  rintro ⟨⟩ ⟨⟩ h
  simpa [X402Request.toJson, unsigned_injective.eq_iff] using h

theorem Permit2Request.toJson_injective : Function.Injective Permit2Request.toJson := by
  rintro ⟨⟩ ⟨⟩ h
  simpa [Permit2Request.toJson, unsigned_injective.eq_iff] using h

theorem number_inj {n m : Option UInt64}
    (h : (n.elim "" fun x => x.toNat.repr) = m.elim "" fun x => x.toNat.repr) : n = m := by
  cases n with
  | none =>
    cases m with
    | none => rfl
    | some y => exact absurd h.symm Nat.repr_ne_empty
  | some x =>
    cases m with
    | none => exact absurd h Nat.repr_ne_empty
    | some y => exact congrArg some (UInt64.toNat_inj.mp (repr_injective h))

def SignRequest.jsonFields (req : SignRequest) : List Json :=
  req.hlAction.toList ++ (req.order.map OrderRequest.toJson).toList ++
    (req.cancel.map CancelRequest.toJson).toList ++ (req.x402.map X402Request.toJson).toList ++
    (req.permit2.map Permit2Request.toJson).toList

/-- The JSON fields of the two requests are written, and differently if they differ. -/
structure SerializesApart (env : Env) (r r' : SignRequest) : Prop where
  total : ∀ v ∈ r.jsonFields, (env.jsonToVec v).isSome = true
  total' : ∀ v ∈ r'.jsonFields, (env.jsonToVec v).isSome = true
  injective : ∀ v ∈ r.jsonFields, ∀ v' ∈ r'.jsonFields, env.jsonToVec v = env.jsonToVec v' → v = v'

def DigestFits (env : Env) (req : SignRequest) : Prop :=
  ∀ b ∈ digestFields env req, b.length < 2 ^ 64

def AgreeIn {α : Type} (a b : Option α) : Prop := ∀ x ∈ a, ∀ y ∈ b, x = y

structure DigestAgree (r r' : SignRequest) : Prop where
  action : r.action = r'.action
  method : r.method.getD "" = r'.method.getD ""
  path : r.path.getD "" = r'.path.getD ""
  query : r.query.getD "" = r'.query.getD ""
  body : r.body.getD "" = r'.body.getD ""
  op : r.op.getD "" = r'.op.getD ""
  payload : r.payload.getD "" = r'.payload.getD ""
  timestampMs : r.timestampMs = r'.timestampMs
  hlAction : AgreeIn r.hlAction r'.hlAction
  nonce : r.nonce = r'.nonce
  vaultAddress : r.vaultAddress.getD "" = r'.vaultAddress.getD ""
  order : AgreeIn r.order r'.order
  cancel : AgreeIn r.cancel r'.cancel
  x402 : AgreeIn r.x402 r'.x402
  permit2 : AgreeIn r.permit2 r'.permit2
  data : r.data.getD "" = r'.data.getD ""

section

variable {env : Env} {r r' : SignRequest}

theorem SerializesApart.agreeIn (h : SerializesApart env r r') {v v' : Option Json}
    (hv : ∀ x ∈ v, x ∈ r.jsonFields) (hv' : ∀ x ∈ v', x ∈ r'.jsonFields)
    (heq : (v.bind env.jsonToVec).getD [] = (v'.bind env.jsonToVec).getD []) : AgreeIn v v' := by
  rintro x rfl y rfl
  refine h.injective x (hv x rfl) y (hv' y rfl) ?_
  obtain ⟨b, hb⟩ := Option.isSome_iff_exists.mp (h.total x (hv x rfl))
  obtain ⟨b', hb'⟩ := Option.isSome_iff_exists.mp (h.total' y (hv' y rfl))
  simpa [hb, hb'] using heq

theorem AgreeIn.of_map {α β : Type} {f : α → β} (hf : Function.Injective f) {a b : Option α}
    (h : AgreeIn (a.map f) (b.map f)) : AgreeIn a b := by
  rintro x rfl y rfl
  exact hf (h (f x) rfl (f y) rfl)

theorem AgreeIn.of_getD {a b : Option String} (h : a.getD "" = b.getD "") : AgreeIn a b := by
  rintro x rfl y rfl
  exact h

theorem digestFields_inj (hfits : DigestFits env r) (hfits' : DigestFits env r')
    (h : requestDigestInput env r = requestDigestInput env r') :
    digestFields env r = digestFields env r' := by
  rw [requestDigestInput_eq, requestDigestInput_eq] at h
  exact flatMap_digestField_inj rfl hfits hfits' h

theorem digestAgree_of_eq (hfits : DigestFits env r) (hfits' : DigestFits env r')
    (hjson : SerializesApart env r r')
    (h : requestDigestInput env r = requestDigestInput env r') : DigestAgree r r' := by
  have hfields := digestFields_inj hfits hfits' h
  simp only [digestFields, List.cons.injEq, and_true, bytes_injective.eq_iff] at hfields
  obtain ⟨haction, hmethod, hpath, hquery, hbody, hop, hpayload, hts, hhl, hnonce, hvault, horder,
    hcancel, hx402, hpermit2, hdata⟩ := hfields
  exact
    { action := Action.name_injective haction
      method := hmethod, path := hpath, query := hquery, body := hbody, op := hop
      payload := hpayload, timestampMs := number_inj hts
      hlAction := hjson.agreeIn (by simp +contextual [SignRequest.jsonFields])
        (by simp +contextual [SignRequest.jsonFields]) hhl
      nonce := number_inj hnonce
      vaultAddress := hvault
      order := .of_map OrderRequest.toJson_injective <| hjson.agreeIn
        (by simp +contextual [SignRequest.jsonFields])
          (by simp +contextual [SignRequest.jsonFields])
        horder
      cancel := .of_map CancelRequest.toJson_injective <| hjson.agreeIn
        (by simp +contextual [SignRequest.jsonFields])
          (by simp +contextual [SignRequest.jsonFields])
        hcancel
      x402 := .of_map X402Request.toJson_injective <| hjson.agreeIn
        (by simp +contextual [SignRequest.jsonFields])
          (by simp +contextual [SignRequest.jsonFields])
        hx402
      permit2 := .of_map Permit2Request.toJson_injective <| hjson.agreeIn
        (by simp +contextual [SignRequest.jsonFields])
          (by simp +contextual [SignRequest.jsonFields])
        hpermit2
      data := hdata }

/-! ### The gates -/

theorem eq_of_getD {a b : Option String} (h : a.getD "" = b.getD "") (hsome : a.isSome = b.isSome) :
    a = b := by
  cases a <;> cases b <;> simp_all

theorem okxRequestPath_getD (path : String) (query : Option String) :
    okxRequestPath path query = okxRequestPath path (some (query.getD "")) := by
  cases query <;> simp [okxRequestPath]

theorem requestVault_getD (vault : Option String) :
    requestVault vault = requestVault (some (vault.getD "")) := by
  cases vault with
  | none => rfl
  | some v => rfl

theorem asterdexGate_congr {path path' : Option String} (h : path.getD "" = path'.getD "")
    (body : String) : asterdexGate env path body = asterdexGate env path' body := by
  have hallowed : (fun allowed => asterdexEndpointAllowed allowed path) =
      fun allowed => asterdexEndpointAllowed allowed path' := by
    funext allowed
    simp only [asterdexEndpointAllowed, h]
  funext policy
  rw [asterdexGate, asterdexGate, hallowed]

theorem enforcePolicy_congr {policy : Option Policy} (haction : r.action = r'.action)
    (hmethod : r.method = r'.method) (hpath : r.path = r'.path) :
    enforcePolicy env policy r = enforcePolicy env policy r' := by
  simp only [enforcePolicy, enforcePolicyInner, checkPolicyRules, haction, hmethod, hpath]

namespace DigestAgree

variable (h : DigestAgree r r')

include h

theorem enforcePolicy_eq (hmethod : r.method.isSome = r'.method.isSome)
    (hpath : r.path.isSome = r'.path.isSome) {sent sent' : SignRequest} (hsent : SentAs r sent)
    (hsent' : SentAs r' sent') (policy : Option Policy) :
    enforcePolicy env policy sent = enforcePolicy env policy sent' := by
  rcases hsent with ⟨hne, rfl⟩ | ⟨hreq, op, route, hop, hroute, rfl⟩ <;>
    rcases hsent' with ⟨hne', rfl⟩ | ⟨hreq', op', route', hop', hroute', rfl⟩
  · exact enforcePolicy_congr h.action (eq_of_getD h.method hmethod) (eq_of_getD h.path hpath)
  · exact absurd (h.action.trans hreq') hne
  · exact absurd (h.action.symm.trans hreq) hne'
  · -- the operation fixes the route, whatever method and path the callers sent
    obtain rfl : op = op' := AgreeIn.of_getD h.op op hop op' hop'
    obtain rfl : route = route' := Option.mem_unique hroute hroute'
    exact enforcePolicy_congr h.action rfl rfl

theorem capGate_eq {gate gate' : Option Policy → Except ErrCode Unit}
    (hgate : capGate env r = some gate) (hgate' : capGate env r' = some gate') : gate = gate' := by
  have hmethod := AgreeIn.of_getD h.method
  have hpath := AgreeIn.of_getD h.path
  have hbody := AgreeIn.of_getD h.body
  have hop := AgreeIn.of_getD h.op
  unfold capGate at hgate hgate'
  rw [← h.action] at hgate'
  cases haction : r.action <;>
    simp only [haction, reduceCtorEq, do_eq_some, pure_eq_some, Option.some.injEq] at hgate hgate'
  case signKucoin => exact hgate.symm.trans hgate'
  case signBybit => exact hgate.symm.trans hgate'
  case signBinance =>
    obtain ⟨m, hm, b, hb, rfl⟩ := hgate
    obtain ⟨m', hm', b', hb', rfl⟩ := hgate'
    rw [hmethod m hm m' hm', hbody b hb b' hb', h.path, h.query]
  case signOkx =>
    obtain ⟨m, hm, q, hq, b, hb, rfl⟩ := hgate
    obtain ⟨m', hm', q', hq', b', hb', rfl⟩ := hgate'
    rw [hmethod m hm m' hm', hpath q hq q' hq', hbody b hb b' hb', okxRequestPath_getD, h.query,
      ← okxRequestPath_getD]
  case signBinanceRequest =>
    obtain ⟨op, ho, -, -, rfl⟩ := hgate
    obtain ⟨op', ho', -, -, rfl⟩ := hgate'
    rw [hop op ho op' ho']
  case signAsterdex =>
    obtain ⟨b, hb, rfl⟩ := hgate
    obtain ⟨b', hb', rfl⟩ := hgate'
    rw [hbody b hb b' hb', asterdexGate_congr h.path]
  case signX402Eip3009 =>
    obtain ⟨x, hx, t, ht, rfl⟩ := hgate
    obtain ⟨x', hx', t', ht', rfl⟩ := hgate'
    obtain rfl := h.x402 x hx x' hx'
    rw [Option.mem_unique ht ht']
  case signPermit2PermitSingle =>
    obtain ⟨p, hp, a, ha, q, hq, rfl⟩ := hgate
    obtain ⟨p', hp', a', ha', q', hq', rfl⟩ := hgate'
    obtain rfl := h.permit2 p hp p' hp'
    obtain rfl := Option.mem_unique ha ha'
    rw [Option.mem_unique hq hq']
  case signBinanceOrder | signOkxOrder =>
    obtain ⟨o, ho, rfl⟩ := hgate
    obtain ⟨o', ho', rfl⟩ := hgate'
    rw [h.order o ho o' ho']
  case signBinanceCancel | signOkxCancel =>
    obtain ⟨c, hc, rfl⟩ := hgate
    obtain ⟨c', hc', rfl⟩ := hgate'
    rw [h.cancel c hc c' hc']
  all_goals
    obtain ⟨a, ha, v, hv, rfl⟩ := hgate
    obtain ⟨a', ha', v', hv', rfl⟩ := hgate'
    rw [requestVault_getD, h.vaultAddress, ← requestVault_getD] at hv
    rw [h.hlAction a ha a' ha', Option.mem_unique hv hv']

theorem intentGate_eq {identity : ResolvedIdentity} {g g' : Option Policy → Handler Unit}
    (hsig : r.intentSignature = r'.intentSignature)
    (hnonce : r.action ∈ [Action.signBinanceCancel, .signOkxCancel] →
      r.intentNonce = r'.intentNonce)
    (hgate : intentGate env identity r = some g) (hgate' : intentGate env identity r' = some g') :
    g = g' := by
  unfold intentGate at hgate hgate'
  rw [← h.action] at hgate'
  cases haction : r.action <;>
    simp only [haction, reduceCtorEq, do_eq_some, pure_eq_some] at hgate hgate'
  case signBinanceOrder | signOkxOrder =>
    obtain ⟨o, ho, ts, hts, rfl⟩ := hgate
    obtain ⟨o', ho', ts', hts', rfl⟩ := hgate'
    obtain rfl := h.order o ho o' ho'
    obtain rfl := Option.mem_unique hts (h.timestampMs.trans hts')
    simp only [enforceAgentIntentOrder, hsig]
  case signBinanceCancel | signOkxCancel =>
    obtain ⟨c, hc, ts, hts, rfl⟩ := hgate
    obtain ⟨c', hc', ts', hts', rfl⟩ := hgate'
    obtain rfl := h.cancel c hc c' hc'
    obtain rfl := Option.mem_unique hts (h.timestampMs.trans hts')
    simp only [enforceAgentIntentCancel, hsig, hnonce (by simp [haction])]

end DigestAgree

/-- Requests with one digest input and one intent signature, that agree in whether a method
and a path are given and, if they are structured cancels, in the nonce of the intent: the
rules of any policy have one outcome for both, on the request as the handler puts it to
them; so has the cap gate, where both get to it; and so has the intent gate, in any state of
the ledger. -/
theorem request_digest_pins_gates (hfits : DigestFits env r) (hfits' : DigestFits env r')
    (hjson : SerializesApart env r r')
    (hinput : requestDigestInput env r = requestDigestInput env r')
    (hsig : r.intentSignature = r'.intentSignature)
    (hmethod : r.method.isSome = r'.method.isSome) (hpath : r.path.isSome = r'.path.isSome)
    (hnonce : r.action ∈ [Action.signBinanceCancel, .signOkxCancel] →
      r.intentNonce = r'.intentNonce) :
    (∀ policy sent sent', SentAs r sent → SentAs r' sent' →
      enforcePolicy env policy sent = enforcePolicy env policy sent') ∧
    (∀ gate gate', capGate env r = some gate → capGate env r' = some gate' →
      ∀ policy, gate policy = gate' policy) ∧
    (∀ identity gate gate', intentGate env identity r = some gate →
      intentGate env identity r' = some gate' →
      ∀ policy s, (gate policy).run s = (gate' policy).run s) := by
  have hagree := digestAgree_of_eq hfits hfits' hjson hinput
  refine ⟨?_, ?_, ?_⟩
  · intro policy sent sent' hsent hsent'
    exact hagree.enforcePolicy_eq hmethod hpath hsent hsent' policy
  · intro gate gate' hgate hgate' policy
    rw [hagree.capGate_eq hgate hgate']
  · intro identity gate gate' hgate hgate' policy s
    rw [hagree.intentGate_eq hsig hnonce hgate hgate']

end

namespace Sample

def limitOrderResent : SignRequest :=
  { limitOrder with query := some "", opaqueToken := some "other" }

def methodPolicy : Policy := { cappedPolicy with allowedMethods := some ["POST"] }

def pathPolicy : Policy := { cappedPolicy with allowedPathPrefixes := some ["/fapi"] }

def agentKey : Bytes :=
  beBytes 32 0x8139770ea87d175f56a35466c34c7ecccb8d8a91b4ee37a25df60f5b8fc9b394

def intentPolicy : Policy := { cappedPolicy with intentPubkey := some (hexEncode agentKey) }

def cancelSignature : Bytes :=
  beBytes 32 0x51ca831863dc6ac47f15810df04dc83605dd7501ad94579dc42ffb22f2679b64 ++
    beBytes 32 0xffb082d34b839e6401a5df75b3e448f92e40a8d1c82396ac18b0d4e09172f802

def agentCancel : SignRequest :=
  { request .signBinanceCancel with
    cancel := some { symbol := "BTCUSDT", orderId := "7" }
    intentNonce := some "nonce-1"
    intentSignature := some (hexEncode cancelSignature) }

def cancelIntentMsg : Bytes :=
  buildAgentIntentMsgCancel customer "binance" .signBinanceCancel 1700000000000 "nonce-1"
    { symbol := "BTCUSDT", orderId := "7" }

def digestTable : List (Bytes × Bytes) :=
  [(bytes ("\x7b\"allowed_methods\":[\"POST\"],\"order_caps\":[\x7b\"symbol\":\"BTCUSDT\"," ++
      "\"max_qty\":\"0.5\",\"max_notional\":\"40000\"\x7d]\x7d"),
      beBytes 32 0xe577fa7fcac325d05647fc12e0699d01ef0a14d8c8563c4ffe658d69a55c023c),
    (bytes ("\x7b\"allowed_path_prefixes\":[\"/fapi\"],\"order_caps\":[\x7b\"symbol\":" ++
      "\"BTCUSDT\",\"max_qty\":\"0.5\",\"max_notional\":\"40000\"\x7d]\x7d"),
      beBytes 32 0xe817258e88521972d73329b8c3d121dbe129c52c2c6d9e3148d19ef6a53d2269),
    (cancelIntentMsg,
      beBytes 32 0xcaee21379deda7ac52aebac4ab2460dec9dec5c2ceb2fecea1e7ec82ffe65626)]

def digestEnv : Env :=
  { compactEnv with
    sha256 := digests digestTable
    ed25519Verify := fun key message sig =>
      key = agentKey ∧ message = cancelIntentMsg ∧ sig = cancelSignature }

def cancelGate (req : SignRequest) : Handler Unit :=
  enforceAgentIntentCancel digestEnv (some intentPolicy) (identity ["binance"] .active) "binance"
    .signBinanceCancel 1700000000000 { symbol := "BTCUSDT", orderId := "7" } req

theorem cancelGate_accepts : ∃ s' t, (cancelGate agentCancel).Returns {} () s' t := by
  have hkey : hexDecodeExact 32 (hexEncode agentKey) = some agentKey := by
    rw [hexDecodeExact_hexEncode, if_pos (by simp [agentKey])]
  have hsig : hexDecodeExact 64 (hexEncode cancelSignature) = some cancelSignature := by
    rw [hexDecodeExact_hexEncode, if_pos (by simp [cancelSignature])]
  have hverify : digestEnv.ed25519Verify agentKey cancelIntentMsg cancelSignature = true := by
    simp [digestEnv]
  have hpolicy : (some intentPolicy).bind Policy.intentPubkey =
      some (hexEncode agentKey) := rfl
  simp only [cancelGate, enforceAgentIntentCancel, hpolicy, agentCancel, Proc.returns_ofOption_bind,
    verifyAgentIntent, Proc.returns_ensure_bind, Proc.returns_update_bind, Proc.returns_perform,
    hkey, Option.some.injEq]
  exact ⟨_, _, _, rfl, _, rfl, rfl, _, rfl, _, hsig, hverify, true, _, rfl, rfl, rfl, rfl⟩

end Sample

open Sample in
/-- The order and its copy have one digest input, and the gates treat them alike. -/
theorem request_digest_pins_gates_limitOrder :
    requestDigestInput compactEnv limitOrder = requestDigestInput compactEnv limitOrderResent ∧
      enforcePolicy compactEnv (some cappedPolicy) limitOrder =
        enforcePolicy compactEnv (some cappedPolicy) limitOrderResent ∧
      ∃ gate gate', capGate compactEnv limitOrder = some gate ∧
        capGate compactEnv limitOrderResent = some gate' ∧
        gate (some cappedPolicy) = gate' (some cappedPolicy) := by
  have hfits : DigestFits compactEnv limitOrder := by
    unfold DigestFits
    decide +kernel
  have hjson : SerializesApart compactEnv limitOrder limitOrderResent := by
    have hvalue : limitOrder.jsonFields = limitOrderResent.jsonFields := rfl
    have htotal : ∀ v ∈ limitOrder.jsonFields, (compactEnv.jsonToVec v).isSome = true := by
      decide +kernel
    refine ⟨htotal, hvalue ▸ htotal, fun v hv v' hv' h => ?_⟩
    obtain ⟨b, hb⟩ := Option.isSome_iff_exists.mp (htotal v hv)
    exact compactBytes_inj hb (h.symm.trans hb)
  have hfits' : DigestFits compactEnv limitOrderResent := hfits
  have hgates := request_digest_pins_gates hfits hfits' hjson rfl rfl rfl rfl fun _ => rfl
  have hsame : ∀ req : SignRequest, req.action = .signBinanceOrder → SentAs req req :=
    fun req haction => .inl ⟨by simp [haction], rfl⟩
  exact ⟨rfl, hgates.1 _ _ _ (hsame _ rfl) (hsame _ rfl), _, _, rfl, rfl,
    hgates.2.1 _ _ rfl rfl (some cappedPolicy)⟩

open Sample in
/-- The digest does not tell an absent method or path from an empty one, nor one nonce of an
intent from another, and the outcomes differ. -/
theorem request_digest_unpinned :
    (requestDigestInput digestEnv limitOrder =
        requestDigestInput digestEnv { limitOrder with method := some "" } ∧
      (enforcePolicy digestEnv (some methodPolicy) limitOrder).toOption.isSome = true ∧
      enforcePolicy digestEnv (some methodPolicy) { limitOrder with method := some "" } =
        .error (denyUnder (computePolicyHash digestEnv methodPolicy) .actionNotAllowed)) ∧
    (requestDigestInput digestEnv limitOrder =
        requestDigestInput digestEnv { limitOrder with path := some "" } ∧
      (enforcePolicy digestEnv (some pathPolicy) limitOrder).toOption.isSome = true ∧
      enforcePolicy digestEnv (some pathPolicy) { limitOrder with path := some "" } =
        .error (denyUnder (computePolicyHash digestEnv pathPolicy) .actionNotAllowed)) ∧
    (requestDigestInput digestEnv agentCancel =
        requestDigestInput digestEnv { agentCancel with intentNonce := none } ∧
      (∃ s' t, (cancelGate agentCancel).Returns {} () s' t) ∧
      (cancelGate { agentCancel with intentNonce := none }).run {} =
        ⟨.error (.err .badRequest), {}, []⟩) :=
  ⟨⟨rfl, by decide +kernel, rfl⟩, ⟨rfl, by decide +kernel, rfl⟩, rfl, cancelGate_accepts, rfl⟩

end Signer
