import Signer.HyperliquidTotals
import Signer.JsonText

/-!
# Hyperliquid actions under caps

What the caps of a policy mean for an action as a whole. Under a notional cap the check asks for a
`limit` member of the order's type and does not look for a `trigger` member next to it.
-/

namespace Signer

open Text

/-! ### Whole actions -/

section

variable {env : Env} {amb : Ambient} {req : SignRequest} {identity : ResolvedIdentity}
  {s s' : Enclave} {t : List Event} {policy : Option Policy} {action action' : Json}
  {orders orders' : List Json} {vault : Option Bytes}

def hlOrders (action : Json) : Option (List Json) := (action.get "orders").bind Json.asArray

theorem batchWithin_of_enforceHlCaps {p : Policy} {caps : List HlOrderCap}
    (hcaps : p.hlOrderCaps = some caps) (horders : hlOrders action = some orders)
    (h : enforceHlCaps (some p) action vault = .ok ()) : BatchWithin caps orders := by
  rw [hlOrders] at horders
  simp only [enforceHlCaps, hcaps, horders] at h
  split at h
  · cases h
  · exact checkHlBatch_ok_iff.mp h

theorem enforceHlCaps_perm (horders : hlOrders action = some orders)
    (horders' : hlOrders action' = some orders') (hperm : orders.Perm orders')
    (h : enforceHlCaps policy action vault = .ok ()) :
    enforceHlCaps policy action' vault = .ok () := by
  cases policy with
  | none => rfl
  | some p =>
    rw [hlOrders] at horders horders'
    simp only [enforceHlCaps, horders, horders'] at h ⊢
    split at h
    · cases h
    rename_i hvault
    rw [if_neg hvault]
    cases hcaps : p.hlOrderCaps with
    | none => rfl
    | some caps =>
      simp only [hcaps] at h
      exact checkHlBatch_ok_iff.mpr ((checkHlBatch_ok_iff.mp h).perm hperm)

theorem Opens.withAction {blob : Opened} {venue : String}
    (h : Opens env amb req identity s blob venue s') (hlAction : Option Json) :
    Opens env amb { req with hlAction } identity s blob venue s' :=
  ⟨h.venue_eq, h.loaded, h.enforced⟩

theorem loadHyperliquidRequest_perm {loaded : HlLoaded} (haction : req.hlAction = some action)
    (horders : hlOrders action = some orders) (horders' : hlOrders action' = some orders')
    (hperm : orders.Perm orders')
    (h : (loadHyperliquidRequest env amb req identity).Returns s loaded s' t) :
    (loadHyperliquidRequest env amb { req with hlAction := some action' } identity).Returns s
      { loaded with action := action' } s' t := by
  obtain ⟨_, nonce, vault, blob, venue, secret, key, haction', hnonce, hvault, hopens, hcaps,
    hsecret, hcomplete, hkey, rfl, rfl⟩ := loadHyperliquidRequest_returns.mp h
  obtain rfl := Option.mem_unique haction' haction
  exact loadHyperliquidRequest_returns.mpr ⟨action', nonce, vault, blob, venue, secret, key, rfl,
    hnonce, hvault, hopens.withAction _, enforceHlCaps_perm horders horders' hperm hcaps, hsecret,
    hcomplete, hkey, rfl, rfl⟩

/-- Caps are sound for a whole action. Every order of an action that is loaded under caps names a
listed asset and has the fields that are checked, for every asset the exact sums over all its orders
are within the first entry for it, and no listing of the same orders fares differently. -/
theorem hyperliquid_action_within_caps (haction : req.hlAction = some action)
    (horders : hlOrders action = some orders) :
    (∀ loaded s' t p caps, (loadHyperliquidRequest env amb req identity).Returns s loaded s' t →
        some p ∈ acceptedPolicies t → p.hlOrderCaps = some caps →
        (∀ order ∈ orders, ∃ checked, HlOrderWithin caps order checked) ∧
        ∀ asset cap, hlCapOf caps asset = some cap →
          sizeSum (assetOrders asset orders) ≤ decimalValue cap.maxSize ∧
          ∀ n, cap.maxNotional = some n →
            notionalSum (assetOrders asset orders) ≤ decimalValue n) ∧
    ∀ action' orders', hlOrders action' = some orders' → orders.Perm orders' → ∀ s' t,
      (∃ loaded, (loadHyperliquidRequest env amb req identity).Returns s loaded s' t) ↔
        ∃ loaded, (loadHyperliquidRequest env amb { req with hlAction := some action' }
          identity).Returns s loaded s' t := by
  constructor
  · intro loaded s' t p caps hrun hpolicy hcaps
    obtain ⟨_, _, vault, blob, _, _, _, haction', -, -, -, hcheck, -, -, -, -, rfl⟩ :=
      loadHyperliquidRequest_returns.mp hrun
    obtain rfl := Option.some.inj (haction'.symm.trans haction)
    have hp : some p = blob.policy := by simpa [acceptedPolicies] using hpolicy
    rw [← hp] at hcheck
    have hbatch := batchWithin_of_enforceHlCaps hcaps horders hcheck
    refine ⟨fun order horder => ?_, hbatch.sums⟩
    obtain ⟨checked, hchecked⟩ := hbatch.each order horder
    exact ⟨checked, checkHlOrder_ok hchecked⟩
  · intro action' orders' horders' hperm s' t
    constructor
    · rintro ⟨loaded, hrun⟩
      exact ⟨_, loadHyperliquidRequest_perm haction horders horders' hperm hrun⟩
    · rintro ⟨loaded, hrun⟩
      have hback := loadHyperliquidRequest_perm rfl horders' horders hperm.symm hrun
      have hreq : { req with hlAction := some action } = req := by rw [← haction]
      exact ⟨_, hreq ▸ hback⟩

end

namespace Sample

def hlCaps : List HlOrderCap := [{ asset := 0, maxSize := "1", maxNotional := some "10000" }]

def hlPolicy : Policy where
  hlOrderCaps := some hlCaps

def hlPolicyText : String :=
  "\x7b\"hl_order_caps\":[\x7b\"asset\":0,\"max_size\":\"1\",\"max_notional\":\"10000\"\x7d]\x7d"

def hlBuy (size price : String) (type : List (String × Json)) : Json :=
  .object [("a", .number (.posInt 0)), ("b", .bool true), ("p", .string price),
    ("s", .string size), ("r", .bool false), ("t", .object type)]

def hlLimit : String × Json := ("limit", .object [("tif", .string "Gtc")])

def hlStop : String × Json :=
  ("trigger", .object
    [("isMarket", .bool true), ("triggerPx", .string "59000"), ("tpsl", .string "sl")])

def hlBatch (orders : List Json) : Json :=
  .object [("type", .string "order"), ("orders", .array orders), ("grouping", .string "na")]

def hlPlain : Json := hlBuy "0.1" "60000" [hlLimit]

def hlSmaller : Json := hlBuy "0.05" "59000" [hlLimit]

def hlMixed : Json := hlBuy "0.1" "60000" [hlLimit, hlStop]

def hlBlob : Answers := traderAnswers hlPolicy hlPolicyText "wallet_address"

def hlSecret (value : Json) : Option HyperliquidSecret := do
  let privateKey ← (value.get "private_key").bind Json.asStr
  let walletAddress ← (value.get "wallet_address").bind Json.asStr
  pure { privateKey, walletAddress }

def hlEnv : Env :=
  { env hlBlob with
    hyperliquidSecretFromValue := hlSecret
    msgpack := compactBytes }

def hlRequest (orders : List Json) : SignRequest :=
  { request .signHyperliquidTestnetOrder with
    hlAction := some (hlBatch orders)
    nonce := some 1700000000000 }

def hlIdentity : ResolvedIdentity := identity ["hyperliquid_testnet"] .active

theorem hlPair_within : BatchWithin hlCaps [hlPlain, hlSmaller] := by
  have hchecked : ∀ order ∈ [hlPlain, hlSmaller], (checkHlOrder hlCaps order).isOk = true := by
    decide +kernel
  constructor
  · intro order horder
    have hok := hchecked order horder
    cases hcheck : checkHlOrder hlCaps order with
    | error code => simp [hcheck, Except.isOk, Except.toBool] at hok
    | ok checked => exact ⟨checked, rfl⟩
  · intro asset cap hcap
    obtain rfl := List.mem_singleton.mp (List.mem_of_find?_eq_some hcap)
    obtain rfl : 0 = asset := by simpa using List.find?_some hcap
    refine ⟨by decide +kernel, fun n hn => ?_⟩
    cases hn
    decide +kernel

end Sample

open Sample in
/-- Two orders of one asset are loaded together, in either order. -/
theorem hyperliquid_action_within_caps_pair :
    (∃ loaded s' t, (loadHyperliquidRequest hlEnv {} (hlRequest [hlPlain, hlSmaller])
        hlIdentity).Returns {} loaded s' t ∧
      ∃ loaded', (loadHyperliquidRequest hlEnv {} (hlRequest [hlSmaller, hlPlain])
        hlIdentity).Returns {} loaded' s' t) ∧
      sizeSum (assetOrders 0 [hlPlain, hlSmaller]) ≤ decimalValue "1" ∧
      notionalSum (assetOrders 0 [hlPlain, hlSmaller]) ≤ decimalValue "10000" := by
  obtain ⟨_, s', t, hplain, hpolicy⟩ : ∃ loaded s' t,
      (loadHyperliquidRequest hlEnv {} (hlRequest [hlPlain]) hlIdentity).Returns {} loaded s' t ∧
      some hlPolicy ∈ acceptedPolicies t := Proc.exists_returns_of_run (by decide +kernel)
  -- the pair is loaded with what the single order was loaded with
  obtain ⟨loaded, hrun⟩ : ∃ loaded, (loadHyperliquidRequest hlEnv {}
      (hlRequest [hlPlain, hlSmaller]) hlIdentity).Returns {} loaded s' t := by
    obtain ⟨_, nonce, vault, blob, venue, secret, key, -, hnonce, hvault, hopens, -, hsecret,
      hcomplete, hkey, -, rfl⟩ := loadHyperliquidRequest_returns.mp hplain
    have hp : some hlPolicy = blob.policy := by simpa [acceptedPolicies] using hpolicy
    obtain rfl : none = vault := Except.ok.inj hvault
    have hcaps : enforceHlCaps (some hlPolicy) (hlBatch [hlPlain, hlSmaller]) none = .ok () :=
      (checkHlBatch_ok_iff.mpr hlPair_within :)
    exact ⟨_, loadHyperliquidRequest_returns.mpr ⟨_, nonce, none, blob, venue, secret, key, rfl,
      hnonce, hvault, hopens.withAction _, hp ▸ hcaps, hsecret, hcomplete, hkey, rfl, rfl⟩⟩
  have haction : (hlRequest [hlPlain, hlSmaller]).hlAction = some _ := rfl
  obtain ⟨hwithin, hperm⟩ := hyperliquid_action_within_caps haction rfl
  obtain ⟨-, hsums⟩ := hwithin loaded s' t hlPolicy _ hrun hpolicy rfl
  obtain ⟨hsize, hnotional⟩ := hsums 0 _ rfl
  have hswapped := (hperm (hlBatch [hlSmaller, hlPlain]) _ rfl (List.Perm.swap _ _ _) s' t).mp
    ⟨loaded, hrun⟩
  exact ⟨⟨loaded, s', t, hrun, hswapped⟩, hsize, hnotional _ rfl⟩

/-! ### Plain limit orders -/

/-- A notional cap covers the order. -/
def NotionalCapped (caps : List HlOrderCap) (order : Json) : Prop :=
  ∃ asset cap, hlAsset order = some asset ∧ hlCapOf caps asset = some cap ∧
    cap.maxNotional.isSome = true

def hlTypeMember (name : String) (order : Json) : Option Json :=
  (order.get "t").bind (Json.get name)

/-- A limit order that is no trigger order as well. -/
structure PlainLimit (order : Json) : Prop where
  limit : (hlTypeMember "limit" order).isSome = true
  no_trigger : hlTypeMember "trigger" order = none

theorem BatchWithin.limit {caps : List HlOrderCap} {orders : List Json}
    (h : BatchWithin caps orders) {order : Json} (horder : order ∈ orders)
    (hcapped : NotionalCapped caps order) : (hlTypeMember "limit" order).isSome = true := by
  obtain ⟨asset, cap, hasset, hcap, hnotional⟩ := hcapped
  obtain ⟨checked, hcheck⟩ := h.each order horder
  have hwithin := checkHlOrder_ok hcheck
  -- the order was checked against the entry that caps the notional
  obtain rfl : asset = checked.asset := Option.mem_unique hasset hwithin.asset
  obtain rfl : cap = checked.cap := Option.mem_unique hcap hwithin.cap
  obtain ⟨n, hn⟩ := Option.isSome_iff_exists.mp hnotional
  exact (hwithin.notional n hn).1

theorem computeActionHash_of_signHyperliquid {env : Env} {key : Bytes} {action : Json}
    {nonce : UInt64} {vault : Option Bytes} {source : String}
    (h : (signHyperliquid env key action nonce vault source).isSome = true) :
    ∃ packed rest, env.msgpack action = some packed ∧
      computeActionHash env action nonce vault = some (env.keccak256 (packed ++ rest)) := by
  cases hpacked : env.msgpack action with
  | none => simp [signHyperliquid, computeActionHash, hpacked] at h
  | some packed =>
    refine ⟨packed, beBytes 8 nonce.toNat ++ vault.elim [0x00] (0x01 :: ·), rfl, ?_⟩
    cases vault <;> simp [computeActionHash, hpacked]

/-- What is signed under a notional cap are plain limit orders exactly if no order of the request
that the cap covers carries a `trigger` member: where there is one, next to the `limit` member that
the check asks for, the order is signed all the same. The orders are those of whatever action the
hashed bytes encode. -/
theorem notional_capped_orders_plain_limit_iff {validate : Json → Bool} {source source' : String}
    {env : Env} {amb : Ambient} {req : SignRequest} {identity : ResolvedIdentity} {s s' : Enclave}
    {resp : SignResponse} {t : List Event} {p : Policy} {caps : List HlOrderCap} {key : Bytes}
    {action : Json} {nonce : UInt64} {vault : Option Bytes}
    (hmsgpack : ∀ a b packed, env.msgpack a = some packed → env.msgpack b = some packed → a = b)
    (hrun : (handleHyperliquid validate source env amb req identity).Returns s resp s' t)
    (hpolicy : some p ∈ acceptedPolicies t) (hcaps : p.hlOrderCaps = some caps)
    (hsigned : .signed (.hyperliquid key action nonce vault source') ∈ t) :
    ∃ packed rest, env.msgpack action = some packed ∧
      computeActionHash env action nonce vault = some (env.keccak256 (packed ++ rest)) ∧
      ((∀ hashed orders, env.msgpack hashed = some packed → hlOrders hashed = some orders →
          ∀ order ∈ orders, NotionalCapped caps order → PlainLimit order) ↔
        ∀ sent orders, req.hlAction = some sent → hlOrders sent = some orders →
          ∀ order ∈ orders, NotionalCapped caps order → hlTypeMember "trigger" order = none) := by
  obtain ⟨action', nonce', vault', blob, venue, key', haction, -, -, -, hcheck, hsig, rfl⟩ :=
    handleHyperliquid_signs hrun
  have hp : some p = blob.policy := by simpa using hpolicy
  obtain ⟨rfl, rfl, rfl, rfl, rfl⟩ : key = key' ∧ action = action' ∧ nonce = nonce' ∧
      vault = vault' ∧ source' = source := by simpa using hsigned
  obtain ⟨packed, rest, hpacked, hhash⟩ := computeActionHash_of_signHyperliquid hsig
  refine ⟨packed, rest, hpacked, hhash, ?_⟩
  constructor
  · intro hplain sent orders hsent horders order horder hcapped
    obtain rfl : action = sent := Option.some.inj (haction.symm.trans hsent)
    exact (hplain action orders hpacked horders order horder hcapped).no_trigger
  · intro hsent hashed orders hhashed horders order horder hcapped
    obtain rfl : action = hashed := hmsgpack _ _ packed hpacked hhashed
    rw [← hp] at hcheck
    have hbatch := batchWithin_of_enforceHlCaps hcaps horders hcheck
    exact ⟨hbatch.limit horder hcapped, hsent action orders haction horders order horder hcapped⟩

open Sample in
/-- A limit order is signed, and the signed bytes hold plain limit orders only. -/
theorem notional_capped_orders_plain_limit_iff_plain :
    ∃ resp s' t packed, (handleSignHyperliquidTestnetOrder hlEnv {} (hlRequest [hlPlain])
        hlIdentity).Returns {} resp s' t ∧ hlEnv.msgpack (hlBatch [hlPlain]) = some packed ∧
      ∀ hashed orders, hlEnv.msgpack hashed = some packed → hlOrders hashed = some orders →
        ∀ order ∈ orders, NotionalCapped hlCaps order → PlainLimit order := by
  obtain ⟨resp, s', t, hrun, hpolicy⟩ : ∃ resp s' t, (handleSignHyperliquidTestnetOrder hlEnv {}
      (hlRequest [hlPlain]) hlIdentity).Returns {} resp s' t ∧
      some hlPolicy ∈ acceptedPolicies t := Proc.exists_returns_of_run (by decide +kernel)
  obtain ⟨action, nonce, vault, _, _, key, haction, -, -, -, -, -, ht⟩ := handleHyperliquid_signs hrun
  obtain rfl : hlBatch [hlPlain] = action := Option.some.inj haction
  have hsigned : .signed (.hyperliquid key (hlBatch [hlPlain]) nonce vault "b") ∈ t := by simp [ht]
  obtain ⟨packed, _, hpacked, -, hiff⟩ := notional_capped_orders_plain_limit_iff
    (fun _ _ _ => compactBytes_inj) hrun hpolicy rfl hsigned
  refine ⟨resp, s', t, packed, hrun, hpacked, hiff.mpr ?_⟩
  intro sent orders hsent horders order horder _
  obtain rfl : hlBatch [hlPlain] = sent := Option.some.inj hsent
  obtain rfl : [hlPlain] = orders := Option.some.inj horders
  obtain rfl : order = hlPlain := List.mem_singleton.mp horder
  decide +kernel

open Sample in
/-- An order that is a stop at the market as well as a limit order is signed under a notional
cap. -/
theorem trigger_order_signed_under_notional_cap :
    ∃ resp s' t key nonce vault, (handleSignHyperliquidTestnetOrder hlEnv {} (hlRequest [hlMixed])
        hlIdentity).Returns {} resp s' t ∧ some hlPolicy ∈ acceptedPolicies t ∧
      .signed (.hyperliquid key (hlBatch [hlMixed]) nonce vault "b") ∈ t ∧
      hlPolicy.hlOrderCaps = some hlCaps ∧ hlOrders (hlBatch [hlMixed]) = some [hlMixed] ∧
      NotionalCapped hlCaps hlMixed ∧ ¬PlainLimit hlMixed := by
  obtain ⟨resp, s', t, hrun, hpolicy⟩ : ∃ resp s' t, (handleSignHyperliquidTestnetOrder hlEnv {}
      (hlRequest [hlMixed]) hlIdentity).Returns {} resp s' t ∧
      some hlPolicy ∈ acceptedPolicies t := Proc.exists_returns_of_run (by decide +kernel)
  obtain ⟨action, nonce, vault, _, _, key, haction, -, -, -, -, -, ht⟩ := handleHyperliquid_signs hrun
  obtain rfl : hlBatch [hlMixed] = action := Option.some.inj haction
  have htrigger : (hlTypeMember "trigger" hlMixed).isSome = true := by decide +kernel
  refine ⟨resp, s', t, key, nonce, vault, hrun, hpolicy, by simp [ht], rfl, rfl,
    ⟨0, _, rfl, rfl, rfl⟩, ?_⟩
  intro hplain
  rw [hplain.no_trigger] at htrigger
  cases htrigger

end Signer
