import Signer.Sample

/-!
# What an intent message determines

The message an agent signs is a domain followed by length-prefixed fields, a timestamp and a flag.
Fields whose length fits in four bytes can be read back from the front, so the message determines
whose request it is, the route, the time, the nonce, and the whole order or cancel. What a route
signs for the venue is built from these alone.
-/

namespace Signer

open Text

def OrderRequest.texts (o : OrderRequest) : List String :=
  [o.symbol, o.side, o.qty, o.ordType] ++ o.price.toList ++ o.clientOrderId.toList

def CancelRequest.texts (c : CancelRequest) : List String := [c.symbol, c.orderId]

/-! ### Reading the fields back -/

section

variable {a b : String} {rest₁ rest₂ : Bytes}

theorem intentField_append_inj (ha : a.utf8ByteSize < 2 ^ 32) (hb : b.utf8ByteSize < 2 ^ 32)
    (h : intentField a ++ rest₁ = intentField b ++ rest₂) : a = b ∧ rest₁ = rest₂ := by
  obtain ⟨hbytes, hrest⟩ := lengthPrefixed_append_inj
    (by rwa [length_bytes]) (by rwa [length_bytes]) h
  exact ⟨bytes_injective hbytes, hrest⟩

theorem intentOption_append_inj {a b : Option String} (ha : ∀ x ∈ a, x.utf8ByteSize < 2 ^ 32)
    (hb : ∀ x ∈ b, x.utf8ByteSize < 2 ^ 32)
    (h : intentOption a ++ rest₁ = intentOption b ++ rest₂) : a = b ∧ rest₁ = rest₂ := by
  have hlen : ∀ o : Option String, (∀ x ∈ o, x.utf8ByteSize < 2 ^ 32) →
      ∀ x ∈ o.map bytes, x.length < 256 ^ 4 := by
    intro o ho x hx
    obtain ⟨y, hy, rfl⟩ := Option.map_eq_some_iff.mp hx
    rw [length_bytes]
    exact ho y hy
  obtain ⟨hbytes, hrest⟩ := optionPrefixed_append_inj (hlen a ha) (hlen b hb) h
  exact ⟨Option.map_injective bytes_injective hbytes, hrest⟩

theorem headerFields_append_inj {venue venue' nonce nonce' : String} {action action' : Action}
    {ts ts' : UInt64}
    (h₁ : venue.utf8ByteSize < 2 ^ 32 ∧ action.name.utf8ByteSize < 2 ^ 32 ∧
      nonce.utf8ByteSize < 2 ^ 32)
    (h₂ : venue'.utf8ByteSize < 2 ^ 32 ∧ action'.name.utf8ByteSize < 2 ^ 32 ∧
      nonce'.utf8ByteSize < 2 ^ 32)
    (h : intentField venue ++ (intentField action.name ++ (beBytes 8 ts.toNat ++
        (intentField nonce ++ rest₁))) =
      intentField venue' ++ (intentField action'.name ++ (beBytes 8 ts'.toNat ++
        (intentField nonce' ++ rest₂)))) :
    (venue = venue' ∧ action = action' ∧ ts = ts' ∧ nonce = nonce') ∧ rest₁ = rest₂ := by
  obtain ⟨hvenue, h⟩ := intentField_append_inj h₁.1 h₂.1 h
  obtain ⟨hname, h⟩ := intentField_append_inj h₁.2.1 h₂.2.1 h
  obtain ⟨hts, h⟩ := List.append_inj h (by simp)
  obtain ⟨hnonce, hrest⟩ := intentField_append_inj h₁.2.2 h₂.2.2 h
  have hbytes : ∀ ts : UInt64, ts.toNat < 256 ^ 8 := fun ts => ts.toNat_lt
  have hts := UInt64.toNat_inj.mp (beBytes_injective (hbytes _) (hbytes _) hts)
  exact ⟨⟨hvenue, Action.name_injective hname, hts, hnonce⟩, hrest⟩

end

/-! ### The content of an intent -/

structure IntentContent where
  customerId : String
  venue : String
  action : Action
  timestampMs : UInt64
  nonce : String
  item : OrderRequest ⊕ CancelRequest

namespace IntentContent

variable {c d : IntentContent}

def message (c : IntentContent) : Bytes :=
  c.item.elim
    (buildAgentIntentMsgOrder c.customerId c.venue c.action c.timestampMs c.nonce)
    (buildAgentIntentMsgCancel c.customerId c.venue c.action c.timestampMs c.nonce)

/-- The length of every field fits in four bytes. -/
def Fits (c : IntentContent) : Prop :=
  ∀ text ∈ c.customerId :: c.venue :: c.action.name :: c.nonce ::
    c.item.elim OrderRequest.texts CancelRequest.texts, text.utf8ByteSize < 2 ^ 32

def pinned (c : IntentContent) : IntentContent :=
  { c with item := c.item.map (fun order => { order with clientOrderId := some c.nonce }) id }

def orderFields (o : OrderRequest) : Bytes :=
  intentField o.symbol ++ (intentField o.side ++ (intentField o.qty ++
    (intentField o.ordType ++ (intentOption o.price ++ [if o.reduceOnly then 1 else 0]))))

def cancelFields (k : CancelRequest) : Bytes :=
  intentField k.symbol ++ (intentField k.orderId ++ [])

theorem message_eq (c : IntentContent) :
    c.message = agentIntentHeader c.customerId c.venue c.action c.timestampMs c.nonce ++
      c.item.elim orderFields cancelFields := by
  unfold message
  cases c.item <;>
    simp [buildAgentIntentMsgOrder, buildAgentIntentMsgCancel, orderFields, cancelFields]

theorem header_append_inj (hc : c.Fits) (hd : d.Fits) {rest₁ rest₂ : Bytes}
    (h : agentIntentHeader c.customerId c.venue c.action c.timestampMs c.nonce ++ rest₁ =
      agentIntentHeader d.customerId d.venue d.action d.timestampMs d.nonce ++ rest₂) :
    (c.customerId = d.customerId ∧ c.venue = d.venue ∧ c.action = d.action ∧
      c.timestampMs = d.timestampMs ∧ c.nonce = d.nonce) ∧ rest₁ = rest₂ := by
  simp only [Fits, List.mem_cons, forall_eq_or_imp] at hc hd
  simp only [agentIntentHeader, List.append_assoc] at h
  obtain ⟨hcustomer, hfields⟩ := intentField_append_inj hc.1 hd.1 (List.append_cancel_left h)
  obtain ⟨hheader, hrest⟩ := headerFields_append_inj ⟨hc.2.1, hc.2.2.1, hc.2.2.2.1⟩
    ⟨hd.2.1, hd.2.2.1, hd.2.2.2.1⟩ hfields
  exact ⟨⟨hcustomer, hheader⟩, hrest⟩

theorem orderFields_inj {o o' : OrderRequest} (ho : ∀ text ∈ o.texts, text.utf8ByteSize < 2 ^ 32)
    (ho' : ∀ text ∈ o'.texts, text.utf8ByteSize < 2 ^ 32) (h : orderFields o = orderFields o') :
    { o with clientOrderId := none } = { o' with clientOrderId := none } := by
  simp only [OrderRequest.texts, List.mem_cons, List.mem_append, List.not_mem_nil, or_false,
    Option.mem_toList, or_imp, forall_and, forall_eq] at ho ho'
  obtain ⟨⟨⟨hsymbol, hside, hqty, htype⟩, hprice⟩, -⟩ := ho
  obtain ⟨⟨⟨hsymbol', hside', hqty', htype'⟩, hprice'⟩, -⟩ := ho'
  obtain ⟨h₁, h⟩ := intentField_append_inj hsymbol hsymbol' h
  obtain ⟨h₂, h⟩ := intentField_append_inj hside hside' h
  obtain ⟨h₃, h⟩ := intentField_append_inj hqty hqty' h
  obtain ⟨h₄, h⟩ := intentField_append_inj htype htype' h
  obtain ⟨h₅, hflag⟩ := intentOption_append_inj hprice hprice' h
  have h₆ : o.reduceOnly = o'.reduceOnly := by
    cases hr : o.reduceOnly <;> cases hr' : o'.reduceOnly <;> simp [hr, hr'] at hflag ⊢
  simp [h₁, h₂, h₃, h₄, h₅, h₆]

theorem cancelFields_inj {k k' : CancelRequest} (hk : ∀ text ∈ k.texts, text.utf8ByteSize < 2 ^ 32)
    (hk' : ∀ text ∈ k'.texts, text.utf8ByteSize < 2 ^ 32) (h : cancelFields k = cancelFields k') :
    k = k' := by
  simp only [CancelRequest.texts, List.mem_cons, List.not_mem_nil, or_false, forall_eq_or_imp,
    forall_eq] at hk hk'
  obtain ⟨hsymbol, h⟩ := intentField_append_inj hk.1 hk'.1 h
  obtain ⟨hid, -⟩ := intentField_append_inj hk.2 hk'.2 h
  cases k
  cases k'
  exact congrArg₂ CancelRequest.mk hsymbol hid

theorem orderFields_ne_cancelFields {o : OrderRequest} {k : CancelRequest}
    (ho : ∀ text ∈ o.texts, text.utf8ByteSize < 2 ^ 32)
    (hk : ∀ text ∈ k.texts, text.utf8ByteSize < 2 ^ 32) : orderFields o ≠ cancelFields k := by
  simp only [OrderRequest.texts, CancelRequest.texts, List.mem_cons, List.mem_append, or_imp,
    forall_and, forall_eq] at ho hk
  intro h
  obtain ⟨-, h⟩ := intentField_append_inj ho.1.1.1 hk.1 h
  obtain ⟨-, h⟩ := intentField_append_inj ho.1.1.2.1 hk.2.1 h
  simp at h

theorem pinned_eq_of_message_eq (hc : c.Fits) (hd : d.Fits) (h : c.message = d.message) :
    c.pinned = d.pinned := by
  have hctexts : ∀ text ∈ c.item.elim OrderRequest.texts CancelRequest.texts,
      text.utf8ByteSize < 2 ^ 32 := fun text htext => hc text (by simp [htext])
  have hdtexts : ∀ text ∈ d.item.elim OrderRequest.texts CancelRequest.texts,
      text.utf8ByteSize < 2 ^ 32 := fun text htext => hd text (by simp [htext])
  rw [message_eq, message_eq] at h
  obtain ⟨⟨h₁, h₂, h₃, h₄, h₅⟩, hfields⟩ := header_append_inj hc hd h
  have hitem : c.pinned.item = d.pinned.item := by
    simp only [pinned, h₅]
    cases hx : c.item with
    | inl o =>
      cases hy : d.item with
      | inl o' =>
        rw [hx, hy] at hfields
        have horder := orderFields_inj (by simpa [hx] using hctexts) (by simpa [hy] using hdtexts)
          hfields
        simpa using horder
      | inr k' =>
        rw [hx, hy] at hfields
        exact absurd hfields (orderFields_ne_cancelFields (by simpa [hx] using hctexts)
          (by simpa [hy] using hdtexts))
    | inr k =>
      cases hy : d.item with
      | inl o' =>
        rw [hx, hy] at hfields
        exact absurd hfields.symm (orderFields_ne_cancelFields (by simpa [hy] using hdtexts)
          (by simpa [hx] using hctexts))
      | inr k' =>
        rw [hx, hy] at hfields
        have hcancel := cancelFields_inj (by simpa [hx] using hctexts) (by simpa [hy] using hdtexts)
          hfields
        rw [hcancel]
  cases c
  cases d
  simp_all [pinned]

end IntentContent

/-! ### What the routes sign -/

def orderText (action : Action) (ts : UInt64) (order : OrderRequest) : Option String :=
  match action with
  | .signBinanceOrder =>
    (buildBinanceOrderQuery order).map fun q => binanceCanonical (binanceFullQuery ts q) ""
  | .signOkxOrder =>
    (buildOkxOrderBody order).map fun body =>
      okxCanonical (okxIso8601FromMs ts) "POST" "/api/v5/trade/order" body
  | _ => none

def cancelText (action : Action) (ts : UInt64) (cancel : CancelRequest) : Option String :=
  match action with
  | .signBinanceCancel =>
    (buildBinanceCancelQuery cancel).map fun q => binanceCanonical (binanceFullQuery ts q) ""
  | .signOkxCancel =>
    (buildOkxCancelBody cancel).map fun body =>
      okxCanonical (okxIso8601FromMs ts) "POST" "/api/v5/trade/cancel-order" body
  | _ => none

def IntentContent.text (c : IntentContent) : Option String :=
  c.item.elim (orderText c.action c.timestampMs) (cancelText c.action c.timestampMs)

def structuredActions : List Action :=
  [.signBinanceOrder, .signBinanceCancel, .signOkxOrder, .signOkxCancel]

def intentTexts (req : SignRequest) (identity : ResolvedIdentity) : List String :=
  identity.customerId :: (req.order.elim [] OrderRequest.texts ++
    req.cancel.elim [] CancelRequest.texts ++ req.intentNonce.toList)

section

variable {env : Env} {amb : Ambient} {req : SignRequest} {identity : ResolvedIdentity}
  {s s' : Enclave} {resp : SignResponse} {t : List Event} {p : Policy} {message : SignedMessage}

def SignsIntent (t : List Event) (message : SignedMessage) : Prop :=
  ∃ (c : IntentContent) (i : AgentIntent) (secret text : String), c.Fits ∧ c.pinned = c ∧
    .intentAccepted i ∈ t ∧ i.message = c.message ∧ c.text = some text ∧ message = .hmac secret text

variable {intent : Option AgentIntent} {secret text venue : String}

theorem signsIntent_of_coversOrder {order : OrderRequest} {ts : UInt64}
    {blob : Opened} {venue' : String}
    (hpolicy : blob.policy = some p) (hkey : p.intentPubkey.isSome = true)
    (hfits : ∀ text ∈ identity.customerId :: venue :: req.action.name :: order.texts,
      text.utf8ByteSize < 2 ^ 32)
    (hcovers : CoversOrder env s blob.policy identity venue req.action ts order intent)
    (htext : orderText req.action ts order = some text) :
    SignsIntent (signTrace identity venue' blob intent (.hmac secret text))
      (.hmac secret text) := by
  obtain ⟨pubkey, hpubkey⟩ := Option.isSome_iff_exists.mp hkey
  have hintent := hcovers.key_eq
  rw [hpolicy, Option.bind_some, hpubkey] at hintent
  obtain ⟨i, rfl, -⟩ := Option.map_eq_some_iff.mp hintent
  obtain ⟨coid, hcoid, hmessage⟩ := hcovers.message_eq i rfl
  refine ⟨⟨identity.customerId, venue, req.action, ts, coid, .inl order⟩, i, secret, text, ?_, ?_,
    by simp, hmessage, htext, rfl⟩
  · intro field hfield
    refine hfits field ?_
    simp only [List.mem_cons, Sum.elim_inl] at hfield ⊢
    rcases hfield with h | h | h | rfl | h
    · exact .inl h
    · exact .inr (.inl h)
    · exact .inr (.inr (.inl h))
    · exact .inr (.inr (.inr (by simp [OrderRequest.texts, hcoid])))
    · exact .inr (.inr (.inr h))
  · rw [IntentContent.pinned, Sum.map_inl, ← hcoid]

theorem signsIntent_of_coversCancel {cancel : CancelRequest} {ts : UInt64} {blob : Opened}
    {venue' : String}
    (hpolicy : blob.policy = some p) (hkey : p.intentPubkey.isSome = true)
    (hfits : ∀ text ∈ identity.customerId :: venue :: req.action.name ::
      (cancel.texts ++ req.intentNonce.toList), text.utf8ByteSize < 2 ^ 32)
    (hcovers : CoversCancel env s blob.policy identity venue req.action ts req.intentNonce cancel
      intent)
    (htext : cancelText req.action ts cancel = some text) :
    SignsIntent (signTrace identity venue' blob intent (.hmac secret text))
      (.hmac secret text) := by
  obtain ⟨pubkey, hpubkey⟩ := Option.isSome_iff_exists.mp hkey
  have hintent := hcovers.key_eq
  rw [hpolicy, Option.bind_some, hpubkey] at hintent
  obtain ⟨i, rfl, -⟩ := Option.map_eq_some_iff.mp hintent
  obtain ⟨nonce, hnonce, hmessage⟩ := hcovers.message_eq i rfl
  refine ⟨⟨identity.customerId, venue, req.action, ts, nonce, .inr cancel⟩, i, secret, text, ?_,
    rfl, by simp, hmessage, htext, rfl⟩
  intro field hfield
  refine hfits field ?_
  simp only [List.mem_cons, List.mem_append, Sum.elim_inr] at hfield ⊢
  rcases hfield with h | h | h | rfl | h
  · exact .inl h
  · exact .inr (.inl h)
  · exact .inr (.inr (.inl h))
  · exact .inr (.inr (.inr (.inr (by simp [hnonce]))))
  · exact .inr (.inr (.inr (.inl h)))

theorem signsIntent_of_signed (haction : req.action ∈ structuredActions)
    (hfits : ∀ text ∈ intentTexts req identity, text.utf8ByteSize < 2 ^ 32)
    (hrun : (dispatch env amb req identity).Returns s resp s' t)
    (hpolicy : some p ∈ acceptedPolicies t) (hkey : p.intentPubkey.isSome = true)
    (hsigned : .signed message ∈ t) : SignsIntent t message := by
  have hnames : ∀ name ∈ "binance" :: "okx" :: structuredActions.map Action.name,
      name.utf8ByteSize < 2 ^ 32 := by decide +kernel
  have hname : req.action.name.utf8ByteSize < 2 ^ 32 :=
    hnames _ (by simp [List.mem_map_of_mem haction])
  have horderFits : ∀ order venue, req.order = some order → venue ∈ ["binance", "okx"] →
      ∀ text ∈ identity.customerId :: venue :: req.action.name :: order.texts,
        text.utf8ByteSize < 2 ^ 32 := by
    intro order venue horder hvenue
    simp only [intentTexts, horder, Option.elim_some, List.mem_cons, List.mem_append,
      forall_eq_or_imp] at hfits ⊢
    refine ⟨hfits.1, hnames _ ?_, hname, fun text htext => hfits.2 text (.inl (.inl htext))⟩
    simp only [List.mem_cons, List.not_mem_nil, or_false] at hvenue ⊢
    exact hvenue.imp_right .inl
  have hcancelFits : ∀ cancel venue, req.cancel = some cancel → venue ∈ ["binance", "okx"] →
      ∀ text ∈ identity.customerId :: venue :: req.action.name ::
        (cancel.texts ++ req.intentNonce.toList), text.utf8ByteSize < 2 ^ 32 := by
    intro cancel venue hcancel hvenue
    simp only [intentTexts, hcancel, Option.elim_some, List.mem_cons, List.mem_append,
      forall_eq_or_imp] at hfits ⊢
    refine ⟨hfits.1, hnames _ ?_, hname, fun text htext => hfits.2 text ?_⟩
    · simp only [List.mem_cons, List.not_mem_nil, or_false] at hvenue ⊢
      exact hvenue.imp_right .inl
    · exact htext.imp_left .inr
  simp only [structuredActions, List.mem_cons, List.not_mem_nil, or_false] at haction
  rcases haction with h | h | h | h <;> simp only [dispatch, h] at hrun
  · obtain ⟨order, ts, blob, venue, query, pair, s₁, intent, horder, -, -, -, hcovers, hquery, -,
      rfl⟩ :=
      handleSignBinanceOrder_signs hrun
    obtain rfl := signed_mem_signTrace.mp hsigned
    rw [acceptedPolicies_signTrace, List.mem_singleton] at hpolicy
    exact signsIntent_of_coversOrder hpolicy.symm hkey (horderFits order _ horder (by simp))
      (h ▸ hcovers) (by simp [orderText, h, hquery])
  · obtain ⟨cancel, ts, blob, venue, query, pair, s₁, intent, hcancel, -, -, -, hcovers, hquery, -,
      rfl⟩ := handleSignBinanceCancel_signs hrun
    obtain rfl := signed_mem_signTrace.mp hsigned
    rw [acceptedPolicies_signTrace, List.mem_singleton] at hpolicy
    exact signsIntent_of_coversCancel hpolicy.symm hkey (hcancelFits cancel _ hcancel (by simp))
      (h ▸ hcovers) (by simp [cancelText, h, hquery])
  · obtain ⟨order, ts, blob, venue, body, triple, s₁, intent, horder, -, -, -, hcovers, hbody, -,
      rfl⟩ :=
      handleSignOkxOrder_signs hrun
    obtain rfl := signed_mem_signTrace.mp hsigned
    rw [acceptedPolicies_signTrace, List.mem_singleton] at hpolicy
    exact signsIntent_of_coversOrder hpolicy.symm hkey (horderFits order _ horder (by simp))
      (h ▸ hcovers) (by simp [orderText, h, hbody])
  · obtain ⟨cancel, ts, blob, venue, body, triple, s₁, intent, hcancel, -, -, -, hcovers, hbody, -,
      rfl⟩ := handleSignOkxCancel_signs hrun
    obtain rfl := signed_mem_signTrace.mp hsigned
    rw [acceptedPolicies_signTrace, List.mem_singleton] at hpolicy
    exact signsIntent_of_coversCancel hpolicy.symm hkey (hcancelFits cancel _ hcancel (by simp))
      (h ▸ hcovers) (by simp [cancelText, h, hbody])

end

/-- An intent pins what is signed. Intents with equal messages are equal: they name the same
customer, venue, action, time and nonce, and the same order or cancel in every field, where
the nonce of an order is its client order id. And there is one function from messages to
strings such that a structured route under a policy with an agent key signs for the venue
what this function makes of the intent it has accepted. -/
theorem intent_pins_order :
    (∀ c d : IntentContent, c.Fits → d.Fits → c.message = d.message → c.pinned = d.pinned) ∧
    ∃ signedText : Bytes → String, ∀ (env : Env) (amb : Ambient) (req : SignRequest)
      (identity : ResolvedIdentity) (s s' : Enclave) (resp : SignResponse) (t : List Event)
      (p : Policy) (message : SignedMessage),
      req.action ∈ structuredActions →
      (∀ text ∈ intentTexts req identity, text.utf8ByteSize < 2 ^ 32) →
      (dispatch env amb req identity).Returns s resp s' t →
      some p ∈ acceptedPolicies t → p.intentPubkey.isSome = true → .signed message ∈ t →
      ∃ intent secret, .intentAccepted intent ∈ t ∧
        message = .hmac secret (signedText intent.message) := by
  refine ⟨fun c d => IntentContent.pinned_eq_of_message_eq, ?_⟩
  have hinjective : Function.Injective fun c : {c : IntentContent // c.Fits ∧ c.pinned = c} =>
      c.val.message := by
    rintro ⟨c, hc, hcpinned⟩ ⟨d, hd, hdpinned⟩ h
    have hpinned := IntentContent.pinned_eq_of_message_eq hc hd h
    exact Subtype.ext (hcpinned.symm.trans (hpinned.trans hdpinned))
  refine ⟨Function.extend (fun c : {c : IntentContent // c.Fits ∧ c.pinned = c} => c.val.message)
    (fun c => c.val.text.getD "") (fun _ => ""), ?_⟩
  intro env amb req identity s s' resp t p message haction hfits hrun hpolicy hkey hsigned
  obtain ⟨c, i, secret, text, hc, hpinned, hi, hmessage, htext, rfl⟩ :=
    signsIntent_of_signed haction hfits hrun hpolicy hkey hsigned
  refine ⟨i, secret, hi, ?_⟩
  rw [hmessage, hinjective.extend_apply _ _ ⟨c, hc, hpinned⟩, htext]
  rfl

open Sample in
/-- The agent's order is signed, and the text is that of the intent it was accepted under. -/
theorem intent_pins_order_agentOrder :
    ∃ signedText : Bytes → String, ∃ resp s' t intent,
      (dispatch (env agentBlob) {} agentOrder (identity ["binance"] .active)).Returns {} resp s' t ∧
      .intentAccepted intent ∈ t ∧ signedText intent.message = agentOrderText := by
  obtain ⟨resp, s', t, hrun, hpolicy, htext⟩ : ∃ resp s' t,
      (dispatch (env agentBlob) {} agentOrder (identity ["binance"] .active)).Returns {} resp s' t ∧
      some agentPolicy ∈ acceptedPolicies t ∧ agentOrderText ∈ hmacTexts t :=
    Proc.exists_returns_of_run (by decide +kernel)
  obtain ⟨secret, hsigned⟩ := mem_hmacTexts.mp htext
  obtain ⟨-, signedText, hpins⟩ := intent_pins_order
  obtain ⟨intent, _, haccepted, hmessage⟩ := hpins _ _ _ _ _ _ _ _ _ _ (by decide)
    (by decide +kernel) hrun hpolicy rfl hsigned
  exact ⟨signedText, resp, s', t, intent, hrun, haccepted, (SignedMessage.hmac.inj hmessage).2.symm⟩

end Signer
