import Signer.AsterdexParams
import Signer.BinanceCaps
import Signer.IntentMessage
import Signer.Signing

/-!
# Agent intents cover orders

Under a policy that names an agent key, an order is signed only after the agent's signature over all
of it was verified. The structured routes check the intent, the other routes of the capped venues
sign no order, and Hyperliquid refuses such a policy. The Asterdex route checks caps but no intent,
so the result is for runs in which no Asterdex body carries an order.
-/

namespace Signer

open Text

namespace Text

/-- A colon comes first, behind nothing but JSON space. -/
def colonFollows (text : String) : Bool :=
  (text.toList.dropWhile (· ∈ [' ', '\t', '\n', '\r'])).head? = some ':'

/-- The pieces between quotes that are followed by a colon. -/
def namesBeforeColon : List String → List String
  | name :: next :: rest =>
    if colonFollows next then name :: namesBeforeColon (next :: rest)
    else namesBeforeColon (next :: rest)
  | _ => []

/-- The member names of the objects in a JSON text, as a reader of its quotes finds them. -/
def memberNames (text : String) : List String := namesBeforeColon (split '\"' text)

theorem memberNames_of_noQuote {text : String}
    (h : '\"' ∉ text.toList) : memberNames text = [] := by
  simp [memberNames, split_of_notMem h, namesBeforeColon]

end Text

variable {ts : UInt64} {v method path body : String}

/-- A form with a side and a quantity. -/
def FormOrder (text : String) : Prop :=
  values "side" text ≠ [] ∧ values "quantity" text ≠ []

def JsonOrder (text : String) : Prop :=
  "side" ∈ memberNames text ∧ ∃ size ∈ ["sz", "size", "qty"], size ∈ memberNames text

instance (text : String) : Decidable (FormOrder text) := inferInstanceAs (Decidable (_ ∧ _))

instance (text : String) : Decidable (JsonOrder text) := inferInstanceAs (Decidable (_ ∧ _))

/-- What is signed is an order, as the venue reads it. -/
def PlacesOrder (venue : String) : SignedMessage → Prop
  | .hmac _ text => if venue = "binance" then FormOrder text else JsonOrder text
  | .asterdex _ msg => FormOrder msg
  | .hyperliquid _ action _ _ _ => (action.get "type").bind Json.asStr = some "order"
  | _ => False

theorem FormOrder.shapesOrder {text : String} (h : FormOrder text) : ShapesOrder text := by
  obtain ⟨value, hvalue⟩ := List.exists_mem_of_ne_nil _ h.1
  obtain ⟨piece, hpiece, -⟩ := List.mem_map.mp hvalue
  obtain ⟨hmem, hname⟩ := List.mem_filter.mp hpiece
  have hname : pieceName piece = "side" := by simpa using hname
  exact ⟨piece, hmem, by rw [hname]; decide⟩

/-! ### What an intent message determines -/

/-- `serde_json` makes no string longer than the frame it is read from. -/
def OrderFits (env : Env) : Prop :=
  ∀ frame req order, env.requestFromSlice frame = some req → req.order = some order →
    ∀ text ∈ order.texts, text.utf8ByteSize ≤ frame.length

def DeterminesOrder (customerId : String) (message : Bytes) (order : OrderRequest) : Prop :=
  ∀ venue action ts nonce other,
    (∀ text ∈ venue :: action.name :: nonce :: other.texts, text.utf8ByteSize ≤ maxMessageBytes) →
    buildAgentIntentMsgOrder customerId venue action ts nonce other = message →
    other.symbol = order.symbol ∧ other.side = order.side ∧ other.qty = order.qty ∧
      other.ordType = order.ordType ∧ other.price = order.price ∧
      other.reduceOnly = order.reduceOnly

theorem determinesOrder_of_fits {customerId venue nonce : String} {action : Action}
    {order : OrderRequest} (hfits : ∀ text ∈ venue :: action.name :: nonce :: order.texts,
      text.utf8ByteSize ≤ maxMessageBytes) :
    DeterminesOrder customerId (buildAgentIntentMsgOrder customerId venue action ts nonce order)
      order := by
  intro venue' action' ts' nonce' other hother h
  have hframe : maxMessageBytes < 2 ^ 32 := by decide
  simp only [List.mem_cons, forall_eq_or_imp] at hfits hother
  simp only [buildAgentIntentMsgOrder, agentIntentHeader, List.append_assoc] at h
  -- both messages are of one customer, however long its name
  obtain ⟨-, hfields⟩ := headerFields_append_inj ⟨by omega, by omega, by omega⟩
    ⟨by omega, by omega, by omega⟩ (List.append_cancel_left (List.append_cancel_left h))
  have horder := IntentContent.orderFields_inj
    (fun text htext => Nat.lt_of_le_of_lt (hother.2.2.2 text htext) hframe)
    (fun text htext => Nat.lt_of_le_of_lt (hfits.2.2.2 text htext) hframe) hfields
  simpa using horder

/-! ### Routes that sign no order -/

theorem quote_notMem_of_isToken (h : isToken v = true) : '\"' ∉ v.toList := by
  simp only [isToken, decide_eq_true_eq, List.all_eq_true] at h
  exact fun hquote => absurd (h.2 _ hquote) (by decide)

theorem quote_notMem_of_isSafeParamValue (h : isSafeParamValue v = true) :
    '\"' ∉ v.toList := by
  simp only [isSafeParamValue, decide_eq_true_eq, List.all_eq_true] at h
  exact fun hquote => absurd (h.2 _ hquote) (by decide)

theorem quote_notMem_of_okxCapped (h : genericCappedOpAllowed "okx" method path "" body = true) :
    '\"' ∉ path.toList ∧ body = "" := by
  obtain ⟨-, rfl, read, hread, query, rfl, hquery⟩ := genericCappedOpAllowed_okx h
  have hlisted : ∀ read ∈ okxReads, '\"' ∉ read.1.toList ∧ ∀ name ∈ read.2, '\"' ∉ name.toList := by
    decide
  obtain ⟨hpath, hnames⟩ := hlisted read hread
  refine ⟨?_, rfl⟩
  rw [String.toList_append, List.mem_append, not_or]
  refine ⟨hpath, ?_⟩
  rcases hquery with rfl | ⟨pairs, rfl, -, hpairs⟩
  · simp
  · simp only [formEncode, String.toList_append, String.toList_ofList, List.mem_append]
    rintro (hmark | hquote)
    · simp at hmark
    · rcases mem_of_mem_intercalate hquote with hsep | ⟨piece, hpiece, hmem⟩
      · exact absurd hsep (by decide)
      · obtain ⟨pair, hpair, rfl⟩ := List.mem_map.mp hpiece
        obtain ⟨hname, hvalue⟩ := hpairs pair hpair
        simp [formPiece, hnames _ hname, quote_notMem_of_isToken hvalue] at hmem

theorem quote_notMem_okxIso8601FromMs (ts : UInt64) : '\"' ∉ (okxIso8601FromMs ts).toList := by
  intro h
  simp only [okxIso8601FromMs, String.toList_ofList, List.mem_append, List.mem_singleton] at h
  rcases h with hstamp | hz
  · rcases CivilTime.mem_stamp hstamp with hdigit | hmark
    · exact absurd hdigit (by decide)
    · exact absurd hmark (by decide)
  · exact absurd hz (by decide)

theorem memberNames_genericOkx (hmethod : method ∈ allowedMethods)
    (h : genericCappedOpAllowed "okx" method path "" body = true) :
    memberNames (okxCanonical (okxIso8601FromMs ts) method path body) = [] := by
  obtain ⟨hpath, rfl⟩ := quote_notMem_of_okxCapped h
  have hverbs : ∀ m ∈ allowedMethods, '\"' ∉ m.toList := by decide
  refine memberNames_of_noQuote ?_
  simp [okxCanonical, toAsciiUppercase_of_mem hmethod, quote_notMem_okxIso8601FromMs ts,
    hverbs method hmethod, hpath]

theorem not_jsonOrder_generic (hmethod : method ∈ allowedMethods)
    (h : genericCappedOpAllowed "okx" method path "" body = true) :
    ¬ JsonOrder (okxCanonical (okxIso8601FromMs ts) method path body) := by
  rintro ⟨hside, -⟩
  simp [memberNames_genericOkx hmethod h] at hside

theorem not_colonFollows_of_isSafeParamValue (h : isSafeParamValue v = true) :
    colonFollows v = false := by
  simp only [isSafeParamValue, decide_eq_true_eq, List.all_eq_true] at h
  refine decide_eq_false fun hcolon => absurd (h.2 ':' ?_) (by decide)
  exact (List.dropWhile_sublist _).mem (List.mem_of_mem_head? hcolon)

theorem split_okxCancel (ts : UInt64) {c : CancelRequest} (h : buildOkxCancelBody c = some body) :
    isSafeParamValue c.symbol = true ∧ isSafeParamValue c.orderId = true ∧
    split '\"' (okxCanonical (okxIso8601FromMs ts) "POST" "/api/v5/trade/cancel-order" body) =
      [okxIso8601FromMs ts ++ "POST/api/v5/trade/cancel-order\x7b", "instId", ":", c.symbol, ",",
        "ordId", ":", c.orderId, "\x7d"] := by
  simp only [buildOkxCancelBody, do_eq_some, pure_eq_some, Option.guard_eq_some',
    exists_and_left, exists_const] at h
  obtain ⟨hsymbol, horderId, rfl⟩ := h
  have huppercase : toAsciiUppercase "POST" = "POST" := toAsciiUppercase_of_mem (by decide)
  refine ⟨hsymbol, horderId, split_intercalate (by simp) ?_ ?_⟩
  · simp [quote_notMem_okxIso8601FromMs ts, quote_notMem_of_isSafeParamValue hsymbol,
      quote_notMem_of_isSafeParamValue horderId]
  · simp [okxCanonical, huppercase]

theorem memberNames_okxCancel {c : CancelRequest} (h : buildOkxCancelBody c = some body) :
    memberNames (okxCanonical (okxIso8601FromMs ts) "POST" "/api/v5/trade/cancel-order" body) =
      ["instId", "ordId"] := by
  obtain ⟨hsymbol, horderId, hquotes⟩ := split_okxCancel ts h
  have hliteral : colonFollows "instId" = false ∧ colonFollows ":" = true ∧
      colonFollows "," = false ∧ colonFollows "ordId" = false ∧ colonFollows "\x7d" = false := by
    decide
  simp [memberNames, hquotes, namesBeforeColon, hliteral,
    not_colonFollows_of_isSafeParamValue hsymbol, not_colonFollows_of_isSafeParamValue horderId]

/-! ### Coverage -/

/-- The agent has signed for exactly this order. -/
structure OrderCovered (env : Env) (req : SignRequest) (customerId pubkey : String)
    (trace : List Event) (message : SignedMessage) : Prop where
  covered : ∃ order ts secret text intent s, req.order = some order ∧
    message = .hmac secret text ∧ orderText req.action ts order = some text ∧
    .intentAccepted intent ∈ trace ∧ intent.pubkey = pubkey ∧ intent.Honoured env s ∧
    DeterminesOrder customerId intent.message order

section

variable {env : Env} {amb : Ambient} {req : SignRequest} {identity : ResolvedIdentity}
  {s s' : Enclave} {resp : SignResponse} {t : List Event} {p : Policy} {pubkey venue : String}
  {message : SignedMessage}

theorem orderCovered_of_coversOrder {order : OrderRequest} {secret text : String} {blob : Opened}
    {intent : Option AgentIntent} {venue' : String} (hkey : p.intentPubkey = some pubkey)
    (hpolicy : blob.policy = some p) (horder : req.order = some order)
    (hfits : ∀ text ∈ venue :: req.action.name :: order.texts, text.utf8ByteSize ≤ maxMessageBytes)
    (htext : orderText req.action ts order = some text)
    (hcovers : CoversOrder env s blob.policy identity venue req.action ts order intent) :
    OrderCovered env req identity.customerId pubkey
      (signTrace identity venue' blob intent (.hmac secret text)) (.hmac secret text) := by
  have hpubkey := hcovers.key_eq
  rw [hpolicy, Option.bind_some, hkey] at hpubkey
  obtain ⟨i, rfl, hi⟩ := Option.map_eq_some_iff.mp hpubkey
  obtain ⟨coid, hcoid, hmessage⟩ := hcovers.message_eq i rfl
  refine ⟨order, ts, secret, text, i, s, horder, rfl, htext, by simp, hi,
    hcovers.honoured i rfl, ?_⟩
  rw [hmessage]
  refine determinesOrder_of_fits fun text htext => hfits text ?_
  simp only [List.mem_cons] at htext ⊢
  rcases htext with h | h | rfl | h
  · exact .inl h
  · exact .inr (.inl h)
  · exact .inr (.inr (by simp [OrderRequest.texts, hcoid]))
  · exact .inr (.inr h)

theorem order_covered_of_dispatch (hrun : (dispatch env amb req identity).Returns s resp s' t)
    (hpolicy : some p ∈ acceptedPolicies t) (hkey : p.intentPubkey = some pubkey)
    (hsigned : .signed message ∈ t) (hvenue : venueForAction req.action = some venue)
    (hplaces : PlacesOrder venue message)
    (hfits : ∀ order, req.order = some order → ∀ text ∈ order.texts,
      text.utf8ByteSize ≤ maxMessageBytes)
    (hasterdex : req.action = .signAsterdex → ∀ body, req.body = some body → ¬ FormOrder body) :
    OrderCovered env req identity.customerId pubkey t message := by
  obtain ⟨sent, hsent, hrules⟩ := rulesPass_of_signed hrun hsigned hpolicy
  have hintent : p.intentPubkey.isSome = true := by simp [hkey]
  have hcaps := hrules.caps_of_intent hintent
  have hnotHl := hrules.not_hl_of_intent hintent
  rw [hsent.action_eq] at hnotHl
  have hfit : ∀ order, req.order = some order → ∀ venue ∈ ["binance", "okx"],
      ∀ action ∈ [Action.signBinanceOrder, .signOkxOrder],
      ∀ text ∈ venue :: action.name :: order.texts,
      text.utf8ByteSize ≤ maxMessageBytes := by
    have hvenues : ∀ venue ∈ ["binance", "okx"], venue.utf8ByteSize ≤ maxMessageBytes := by decide
    have hactions : ∀ action ∈ [Action.signBinanceOrder, .signOkxOrder],
        action.name.utf8ByteSize ≤ maxMessageBytes := by decide
    intro order horder venue hvenue action haction text htext
    simp only [List.mem_cons] at htext
    rcases htext with rfl | rfl | htext
    · exact hvenues text hvenue
    · exact hactions action haction
    · exact hfits order horder text htext
  clear hrules
  -- Each route signs one message; only the structured orders and Asterdex can place one.
  cases haction : req.action <;>
    simp only [haction, venueForAction, reduceCtorEq, Option.some.injEq] at hvenue hnotHl <;>
    simp only [dispatch, haction] at hrun
  case signKucoin =>
    obtain ⟨_, _, _, _, blob, _, _, -, -, -, -, -, -, hnone, -, -, rfl⟩ :=
      handleSignKucoin_signs.mp ⟨resp, hrun⟩
    have hp : some p = blob.policy := by simpa using hpolicy
    rw [← hp, Option.bind_some, Option.isNone_iff_eq_none] at hnone
    simp [hnone] at hcaps
  case signBybit =>
    obtain ⟨_, _, _, blob, _, _, -, -, -, -, -, hnone, -, -, rfl⟩ :=
      handleSignBybit_signs.mp ⟨resp, hrun⟩
    have hp : some p = blob.policy := by simpa using hpolicy
    rw [← hp, Option.bind_some, Option.isNone_iff_eq_none] at hnone
    simp [hnone] at hcaps
  case signBinance =>
    subst hvenue
    obtain ⟨_, _, _, blob, _, _, -, -, -, -, -, hgate, -, -, rfl⟩ :=
      handleSignBinance_signs.mp ⟨resp, hrun⟩
    have hp : some p = blob.policy := by simpa using hpolicy
    obtain rfl := signed_mem_signTrace.mp hsigned
    exact absurd (FormOrder.shapesOrder hplaces)
      (not_shapesOrder_generic (hgate (by simpa [← hp] using hcaps)))
  case signBinanceRequest =>
    subst hvenue
    obtain ⟨_, _, _, blob, _, _, -, -, hallow, -, -, hdenied, -, -, rfl⟩ :=
      handleSignBinanceRequest_signs hrun
    have hp : some p = blob.policy := by simpa using hpolicy
    obtain rfl := signed_mem_signTrace.mp hsigned
    rw [← hp] at hdenied
    exact absurd (FormOrder.shapesOrder hplaces) (not_shapesOrder_request hallow hcaps hdenied)
  case signBinanceCancel =>
    subst hvenue
    obtain ⟨_, _, _, _, _, _, _, _, -, -, -, -, -, hquery, -, rfl⟩ :=
      handleSignBinanceCancel_signs hrun
    obtain rfl := signed_mem_signTrace.mp hsigned
    exact absurd (FormOrder.shapesOrder hplaces) (not_shapesOrder_cancel hquery)
  case signBinanceOrder =>
    obtain ⟨order, ts, blob, _, query, _, _, _, horder, -, -, -, hcovers, hquery, -, rfl⟩ :=
      handleSignBinanceOrder_signs hrun
    have hp : blob.policy = some p := by simpa [eq_comm] using hpolicy
    obtain rfl := signed_mem_signTrace.mp hsigned
    refine orderCovered_of_coversOrder hkey hp horder ?_ ?_ (haction ▸ hcovers)
    · rw [haction]
      exact hfit order horder _ (by simp) _ (by simp)
    · simp [haction, orderText, hquery]
  case signOkx =>
    subst hvenue
    obtain ⟨_, _, _, _, blob, _, _, -, -, -, -, hverb, -, hgate, -, rfl⟩ := handleSignOkx_signs hrun
    have hp : some p = blob.policy := by simpa using hpolicy
    obtain rfl := signed_mem_signTrace.mp hsigned
    exact absurd hplaces (not_jsonOrder_generic hverb (hgate (by simpa [← hp] using hcaps)))
  case signOkxCancel =>
    subst hvenue
    obtain ⟨_, _, _, _, _, _, _, _, -, -, -, -, -, hbody, -, rfl⟩ :=
      handleSignOkxCancel_signs hrun
    obtain rfl := signed_mem_signTrace.mp hsigned
    have hside := (show JsonOrder _ from hplaces).1
    simp [memberNames_okxCancel hbody] at hside
  case signOkxOrder =>
    obtain ⟨order, ts, blob, _, body, _, _, _, horder, -, -, -, hcovers, hbody, -, rfl⟩ :=
      handleSignOkxOrder_signs hrun
    have hp : blob.policy = some p := by simpa [eq_comm] using hpolicy
    obtain rfl := signed_mem_signTrace.mp hsigned
    refine orderCovered_of_coversOrder hkey hp horder ?_ ?_ (haction ▸ hcovers)
    · rw [haction]
      exact hfit order horder _ (by simp) _ (by simp)
    · simp [haction, orderText, hbody]
  case signAsterdex =>
    obtain ⟨_, body, _, _, _, _, _, -, hbody, -, -, -, -, -, -, -, -, -, -, -, -, rfl⟩ :=
      handleSignAsterdex_signs.mp ⟨resp, hrun⟩
    obtain rfl := signed_mem_signTrace.mp hsigned
    exact absurd hplaces (hasterdex haction body hbody)
  case signData =>
    obtain ⟨_, _, _, _, _, -, rfl⟩ := handleSignData_signs hrun
    obtain rfl := signed_mem_signTrace.mp hsigned
    exact hplaces.elim
  case signX402Eip3009 =>
    obtain ⟨_, _, _, _, _, -, -, -, -, rfl⟩ := handleSignX402Eip3009_signs hrun
    obtain rfl := signed_mem_signTrace.mp hsigned
    exact hplaces.elim
  case signPermit2PermitSingle =>
    obtain ⟨_, _, _, _, _, _, -, -, -, -, -, rfl⟩ := handleSignPermit2PermitSingle_signs hrun
    obtain rfl := signed_mem_signTrace.mp hsigned
    exact hplaces.elim
  all_goals exact absurd (hnotHl _ rfl) (by decide)

end

/-- In every run in which no Asterdex request carries a side and a quantity, each signature
handed out under a policy with an agent key for a message that places an order is covered
by an intent of that key. -/
theorem orders_under_intent_covered {env : Env} {s : Enclave} {conns : List Connection}
    {step : ServerStep} {req : SignRequest} {served : Served} {message : SignedMessage}
    {p : Policy} {pubkey venue : String} (hfits : OrderFits env)
    (hasterdex : ∀ step ∈ serverSteps env s conns, ∀ req served, step.output = .served req served →
      req.action = .signAsterdex → ∀ body, req.body = some body → ¬ FormOrder body)
    (hstep : step ∈ serverSteps env s conns) (hserved : step.output = .served req served)
    (hanswered : served.answered = true) (hsigned : .signed message ∈ served.trace)
    (hpolicy : some p ∈ acceptedPolicies served.trace) (hkey : p.intentPubkey = some pubkey)
    (hvenue : venueForAction req.action = some venue) (hplaces : PlacesOrder venue message) :
    ∃ identity, resolveIdentity env req step.before = some identity ∧
      OrderCovered env req identity.customerId pubkey served.trace message := by
  obtain ⟨frame, identity, limiter, resp, s₁, hlen, hreq, hidentity, hrun⟩ :=
    signed_of_serverSteps hstep hserved hanswered hsigned
  refine ⟨identity, hidentity, order_covered_of_dispatch hrun hpolicy hkey hsigned hvenue hplaces ?_
    (hasterdex step hstep req served hserved)⟩
  exact fun order horder text htext => (hfits frame req order hreq horder text htext).trans hlen

namespace Sample

def asterdexBlob : Answers :=
  { traderAnswers agentPolicy agentPolicyText "signer_address" with
    frame := requestFrame .signAsterdex
      ("\"method\":\"POST\",\"path\":\"/fapi/v3/order\",\"body\":\"" ++ traderBody ++ "\"")
    request := some traderOrder }

end Sample

open Sample in
/-- An Asterdex order is signed under a policy with an agent key, and no intent was
accepted for it. -/
theorem asterdex_order_uncovered :
    ∃ step served, step ∈ serverSteps (env asterdexBlob) (enclave ["asterdex"] .active)
        [connection asterdexBlob.frame] ∧ step.output = .served traderOrder served ∧
      served.answered = true ∧ some agentPolicy ∈ acceptedPolicies served.trace ∧
      agentPolicy.intentPubkey = some agentPubkey ∧
      (∃ key, (key, traderBody) ∈ venueMessages served.trace) ∧
      FormOrder traderBody ∧ ∀ intent, .intentAccepted intent ∉ served.trace := by
  obtain ⟨hanswered, hpolicy, hmessage, hintents⟩ :
      (handle (env asterdexBlob) {} traderOrder (enclave ["asterdex"] .active)).1.answered =
        true ∧
      some agentPolicy ∈ acceptedPolicies (handle (env asterdexBlob) {} traderOrder
        (enclave ["asterdex"] .active)).1.trace ∧
      (List.replicate 32 0x22, traderBody) ∈ venueMessages (handle (env asterdexBlob) {}
        traderOrder (enclave ["asterdex"] .active)).1.trace ∧
      acceptedIntents (handle (env asterdexBlob) {} traderOrder
        (enclave ["asterdex"] .active)).1.trace = [] := by decide +kernel
  refine ⟨_, _, mem_serverSteps asterdexBlob (enclave ["asterdex"] .active) (by decide +kernel) rfl,
    rfl, hanswered, hpolicy, rfl, ⟨_, hmessage⟩, by decide +kernel, ?_⟩
  intro intent hintent
  rw [← mem_acceptedIntents, hintents] at hintent
  simp at hintent

open Sample in
/-- The order of the sample agent is covered by its intent. -/
theorem orders_under_intent_covered_agentOrder :
    ∃ identity secret, resolveIdentity (env agentBlob) agentOrder (enclave ["binance"] .active) =
        some identity ∧
      OrderCovered (env agentBlob) agentOrder identity.customerId agentPubkey
        (handle (env agentBlob) {} agentOrder (enclave ["binance"] .active)).1.trace
        (.hmac secret agentOrderText) := by
  have hrequest : agentBlob.request = some agentOrder := rfl
  have hfits : OrderFits (env agentBlob) := by
    intro frame req order hreq horder
    obtain ⟨rfl, hsame⟩ := requestFromSlice_eq_some hreq
    obtain rfl := Option.some.inj (hrequest.symm.trans hsame)
    obtain rfl := Option.some.inj horder
    decide +kernel
  have hasterdex : ∀ step ∈ serverSteps (env agentBlob) (enclave ["binance"] .active)
      [connection agentBlob.frame], ∀ req served, step.output = .served req served →
      req.action = .signAsterdex → ∀ body, req.body = some body → ¬ FormOrder body := by
    intro step hmem req served hserved haction
    have hmachine := (Run.mem_steps hmem).2
    rw [hserved] at hmachine
    obtain ⟨frame, -, hreq, -⟩ := handleConnection_served hmachine
    obtain ⟨-, hsame⟩ := requestFromSlice_eq_some hreq
    obtain rfl := Option.some.inj (hrequest.symm.trans hsame)
    exact absurd haction (by decide)
  have hstep := mem_serverSteps agentBlob (enclave ["binance"] .active) (by decide +kernel) hrequest
  obtain ⟨hanswered, htext, hpolicy⟩ :
      (handle (env agentBlob) {} agentOrder (enclave ["binance"] .active)).1.answered = true ∧
      agentOrderText ∈ hmacTexts (handle (env agentBlob) {} agentOrder
        (enclave ["binance"] .active)).1.trace ∧
      some agentPolicy ∈ acceptedPolicies (handle (env agentBlob) {} agentOrder
        (enclave ["binance"] .active)).1.trace := by decide +kernel
  obtain ⟨secret, hsigned⟩ := mem_hmacTexts.mp htext
  have hplaces : PlacesOrder "binance" (.hmac secret agentOrderText) :=
    (by decide +kernel : FormOrder agentOrderText)
  obtain ⟨identity, hidentity, hcovered⟩ := orders_under_intent_covered hfits hasterdex hstep rfl
    hanswered hsigned hpolicy rfl rfl hplaces
  exact ⟨identity, secret, hidentity, hcovered⟩

end Signer
