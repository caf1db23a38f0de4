import Signer.CancelCaps
import Signer.RequestDigest

/-!
# Agent intents and cancels

The structured cancels ask for the agent's signature over the symbol and the order id, the other
routes of Binance and OKX for none. On OKX a capped key signs only reads there, and every key with
an agent is capped.
-/

namespace Signer

open Text

variable {ts : UInt64} {cancel : CancelRequest} {text : String}

def binanceCancelParams : List String :=
  ["symbol", "orderId", "origClientOrderId", "recvWindow", "timestamp"]

def FormCancel (text : String) : Prop :=
  values "symbol" text ≠ [] ∧ NamesIn binanceCancelParams text

def JsonCancel (text : String) : Prop :=
  "instId" ∈ memberNames text ∧ "ordId" ∈ memberNames text

instance (names : List String) (text : String) : Decidable (NamesIn names text) :=
  inferInstanceAs (Decidable (∀ piece ∈ pieces text, _))

instance (text : String) : Decidable (FormCancel text) := inferInstanceAs (Decidable (_ ∧ _))

instance (text : String) : Decidable (JsonCancel text) := inferInstanceAs (Decidable (_ ∧ _))

/-- What is signed is a cancel, as the venue reads it. -/
def IsCancel (venue : String) : SignedMessage → Prop
  | .hmac _ text => if venue = "binance" then FormCancel text else JsonCancel text
  | _ => False

def Targets (venue : String) (cancel : CancelRequest) : SignedMessage → Prop
  | .hmac _ text =>
    if venue = "binance" then
      values "symbol" text = [cancel.symbol] ∧ values "orderId" text = [cancel.orderId]
    else
      memberStrings "instId" text = [cancel.symbol] ∧
      memberStrings "ordId" text = [cancel.orderId]
  | _ => False

def cancelRoutes : List Action :=
  [.signBinanceCancel, .signOkxCancel, .signBinanceRequest, .signBinance, .signOkx]

/-! ### What an intent message determines -/

/-- `serde_json` makes no string longer than the frame it is read from. -/
def CancelFits (env : Env) : Prop :=
  ∀ frame req cancel, env.requestFromSlice frame = some req → req.cancel = some cancel →
    ∀ text ∈ req.intentNonce.toList ++ cancel.texts, text.utf8ByteSize ≤ frame.length

structure DeterminesCancel (customerId : String) (message : Bytes) (cancel : CancelRequest) :
    Prop where
  own : ∃ venue action ts nonce,
    buildAgentIntentMsgCancel customerId venue action ts nonce cancel = message
  other_eq : ∀ venue action ts nonce other,
    (∀ text ∈ venue :: action.name :: nonce :: other.texts, text.utf8ByteSize ≤ maxMessageBytes) →
    buildAgentIntentMsgCancel customerId venue action ts nonce other = message → other = cancel

theorem determinesCancel_of_fits {customerId venue nonce : String} {action : Action}
    (hfits : ∀ text ∈ venue :: action.name :: nonce :: cancel.texts,
      text.utf8ByteSize ≤ maxMessageBytes) :
    DeterminesCancel customerId (buildAgentIntentMsgCancel customerId venue action ts nonce cancel)
      cancel := by
  refine ⟨⟨venue, action, ts, nonce, rfl⟩, fun venue' action' ts' nonce' other hother h => ?_⟩
  have hframe : maxMessageBytes < 2 ^ 32 := by decide
  simp only [List.mem_cons, forall_eq_or_imp] at hfits hother
  simp only [buildAgentIntentMsgCancel, agentIntentHeader, List.append_assoc] at h
  obtain ⟨-, hfields⟩ := headerFields_append_inj ⟨by omega, by omega, by omega⟩
    ⟨by omega, by omega, by omega⟩ (List.append_cancel_left (List.append_cancel_left h))
  exact IntentContent.cancelFields_inj
    (fun text htext => Nat.lt_of_le_of_lt (hother.2.2.2 text htext) hframe)
    (fun text htext => Nat.lt_of_le_of_lt (hfits.2.2.2 text htext) hframe)
    (by simpa [IntentContent.cancelFields] using hfields)

/-! ### What the structured routes sign -/

theorem targets_of_cancelText {action : Action} {secret venue : String}
    (hvenue : venueForAction action = some venue) (h : cancelText action ts cancel = some text) :
    Targets venue cancel (.hmac secret text) := by
  unfold cancelText at h
  split at h
  · obtain ⟨query, hquery, rfl⟩ := Option.map_eq_some_iff.mp h
    obtain rfl : "binance" = venue := Option.some.inj hvenue
    exact values_signedCancel ts hquery
  · obtain ⟨body, hbody, rfl⟩ := Option.map_eq_some_iff.mp h
    obtain rfl : "okx" = venue := Option.some.inj hvenue
    exact memberStrings_okxCancel ts hbody
  · cases h

/-! ### Coverage -/

/-- The agent has signed for exactly this cancel. -/
structure CancelCovered (env : Env) (customerId pubkey venue : String) (trace : List Event)
    (message : SignedMessage) : Prop where
  covered : ∃ cancel intent s, Targets venue cancel message ∧ .intentAccepted intent ∈ trace ∧
    intent.pubkey = pubkey ∧ intent.Honoured env s ∧
    DeterminesCancel customerId intent.message cancel

section

variable {env : Env} {amb : Ambient} {req : SignRequest} {identity : ResolvedIdentity}
  {s s' : Enclave} {resp : SignResponse} {t : List Event} {p : Policy} {pubkey venue : String}
  {message : SignedMessage}

theorem cancelCovered_of_coversCancel {secret : String} {blob : Opened}
    {intent : Option AgentIntent} {venue' : String} (hkey : p.intentPubkey = some pubkey)
    (hpolicy : blob.policy = some p) (hvenue : venueForAction req.action = some venue)
    (hfits : ∀ text ∈ req.intentNonce.toList ++ cancel.texts, text.utf8ByteSize ≤ maxMessageBytes)
    (hnames : venue.utf8ByteSize ≤ maxMessageBytes ∧ req.action.name.utf8ByteSize ≤ maxMessageBytes)
    (htext : cancelText req.action ts cancel = some text)
    (hcovers : CoversCancel env s blob.policy identity venue req.action ts req.intentNonce cancel
      intent) :
    CancelCovered env identity.customerId pubkey venue
      (signTrace identity venue' blob intent (.hmac secret text)) (.hmac secret text) := by
  have hpubkey := hcovers.key_eq
  rw [hpolicy, Option.bind_some, hkey] at hpubkey
  obtain ⟨i, rfl, hi⟩ := Option.map_eq_some_iff.mp hpubkey
  obtain ⟨nonce, hnonce, hmessage⟩ := hcovers.message_eq i rfl
  refine ⟨cancel, i, s, targets_of_cancelText hvenue htext, by simp, hi, hcovers.honoured i rfl, ?_⟩
  rw [hmessage]
  refine determinesCancel_of_fits fun text htext => ?_
  simp only [List.mem_cons] at htext
  rcases htext with rfl | rfl | rfl | htext
  · exact hnames.1
  · exact hnames.2
  · exact hfits _ (by simp [hnonce])
  · exact hfits _ (by simp [htext])

theorem cancelCovered_iff_of_dispatch (hrun : (dispatch env amb req identity).Returns s resp s' t)
    (hpolicy : some p ∈ acceptedPolicies t) (hkey : p.intentPubkey = some pubkey)
    (hsigned : .signed message ∈ t) (haction : req.action ∈ cancelRoutes)
    (hvenue : venueForAction req.action = some venue) (hcancel : IsCancel venue message)
    (hfits : ∀ cancel, req.cancel = some cancel → ∀ text ∈ req.intentNonce.toList ++ cancel.texts,
      text.utf8ByteSize ≤ maxMessageBytes) :
    CancelCovered env identity.customerId pubkey venue t message ↔
      req.action ≠ .signBinanceRequest ∧ req.action ≠ .signBinance := by
  obtain ⟨sent, hsent, hrules⟩ := rulesPass_of_signed hrun hsigned hpolicy
  have hcaps := hrules.caps_of_intent (by simp [hkey])
  -- without an intent in the trace nothing is covered
  have huncovered : ∀ {venue' blob m}, t = signTrace identity venue' blob none m →
      ¬CancelCovered env identity.customerId pubkey venue t message := by
    rintro venue' blob m rfl ⟨cancel, intent, s, -, hintent, -⟩
    simp at hintent
  simp only [cancelRoutes, List.mem_cons, List.not_mem_nil, or_false] at haction
  rcases haction with haction | haction | haction | haction | haction <;>
    simp only [dispatch, haction] at hrun <;> rw [haction]
  · obtain ⟨cancel, ts, blob, _, query, _, _, _, hgiven, -, -, -, hcovers, hquery, -, rfl⟩ :=
      handleSignBinanceCancel_signs hrun
    obtain rfl : "binance" = venue := by simpa [haction, venueForAction] using hvenue
    have hp : blob.policy = some p := by simpa [eq_comm] using hpolicy
    obtain rfl := signed_mem_signTrace.mp hsigned
    refine iff_of_true (cancelCovered_of_coversCancel hkey hp hvenue (hfits cancel hgiven) ?_ ?_
      (haction ▸ hcovers)) (by decide)
    · rw [haction]
      decide
    · simp [cancelText, haction, hquery]
  · obtain ⟨cancel, ts, blob, _, body, _, _, _, hgiven, -, -, -, hcovers, hbody, -, rfl⟩ :=
      handleSignOkxCancel_signs hrun
    obtain rfl : "okx" = venue := by simpa [haction, venueForAction] using hvenue
    have hp : blob.policy = some p := by simpa [eq_comm] using hpolicy
    obtain rfl := signed_mem_signTrace.mp hsigned
    refine iff_of_true (cancelCovered_of_coversCancel hkey hp hvenue (hfits cancel hgiven) ?_ ?_
      (haction ▸ hcovers)) (by decide)
    · rw [haction]
      decide
    · simp [cancelText, haction, hbody]
  · obtain ⟨_, _, _, _, _, _, -, -, -, -, -, -, -, -, ht⟩ := handleSignBinanceRequest_signs hrun
    exact iff_of_false (huncovered ht) (by simp)
  · obtain ⟨_, _, _, _, _, _, -, -, -, -, -, -, -, -, ht⟩ := handleSignBinance_signs.mp ⟨resp, hrun⟩
    exact iff_of_false (huncovered ht) (by simp)
  · -- every key with an agent is capped, and then this route signs no JSON
    obtain ⟨_, _, _, _, blob, _, _, -, -, -, -, hverb, -, hgate, -, rfl⟩ := handleSignOkx_signs hrun
    obtain rfl : "okx" = venue := by simpa [haction, venueForAction] using hvenue
    have hp : some p = blob.policy := by simpa using hpolicy
    obtain rfl := signed_mem_signTrace.mp hsigned
    have hinstId := (show JsonCancel _ from hcancel).1
    simp [memberNames_genericOkx hverb (hgate (by simpa [← hp] using hcaps))] at hinstId

end

/-- In every run: a cancel that is signed on Binance or OKX under a policy with an agent key is
covered by an intent of that key, exactly if it came in neither through the route for named
operations nor through the generic route of Binance. -/
theorem cancels_under_intent_covered_iff {env : Env} {s : Enclave} {conns : List Connection}
    {step : ServerStep} {req : SignRequest} {served : Served} {message : SignedMessage}
    {p : Policy} {pubkey venue : String} (hfits : CancelFits env)
    (hstep : step ∈ serverSteps env s conns) (hserved : step.output = .served req served)
    (hanswered : served.answered = true) (hsigned : .signed message ∈ served.trace)
    (hpolicy : some p ∈ acceptedPolicies served.trace) (hkey : p.intentPubkey = some pubkey)
    (hvenue : venueForAction req.action = some venue) (haction : req.action ∈ cancelRoutes)
    (hcancel : IsCancel venue message) :
    (∃ identity, resolveIdentity env req step.before = some identity ∧
        CancelCovered env identity.customerId pubkey venue served.trace message) ↔
      req.action ≠ .signBinanceRequest ∧ req.action ≠ .signBinance := by
  obtain ⟨frame, identity, limiter, resp, s₁, hlen, hreq, hidentity, hrun⟩ :=
    signed_of_serverSteps hstep hserved hanswered hsigned
  rw [← cancelCovered_iff_of_dispatch hrun hpolicy hkey hsigned haction hvenue hcancel
    fun cancel hgiven text htext => (hfits frame req cancel hreq hgiven text htext).trans hlen]
  constructor
  · rintro ⟨identity', hidentity', hcovered⟩
    rwa [Option.some.inj (hidentity'.symm.trans hidentity)] at hcovered
  · exact fun hcovered => ⟨identity, hidentity, hcovered⟩

namespace Sample

def agentCancelBlob (req : SignRequest) (members : String) : Answers :=
  { agentBlob with
    verifies := fun key message sig =>
      key = agentKey ∧ message = cancelIntentMsg ∧ sig = cancelSignature
    frame := requestFrame req.action members
    request := some req }

def agentCancelled : Answers :=
  agentCancelBlob agentCancel ("\"cancel\":\x7b\"symbol\":\"BTCUSDT\",\"order_id\":\"7\"\x7d," ++
    "\"intent_nonce\":\"nonce-1\",\"intent_signature\":\"" ++ hexEncode cancelSignature ++
      "\"")

def namedCancelled : Answers :=
  agentCancelBlob (namedCancel "cancel" "symbol=BTCUSDT&orderId=7&timestamp=1700000000000")
    "\"op\":\"cancel\",\"payload\":\"symbol=BTCUSDT&orderId=7&timestamp=1700000000000\""

def genericCancelled : Answers :=
  agentCancelBlob (genericCancelAll "BTCUSDT")
    ("\"method\":\"DELETE\",\"path\":\"/fapi/v1/allOpenOrders\",\"query\":\"symbol=BTCUSDT\"," ++
      "\"body\":\"\"")

def CancelsUncovered (a : Answers) (text : String) : Prop :=
  ∃ step req served, step ∈ serverSteps (env a) (enclave ["binance"] .active) [connection a.frame] ∧
    step.output = .served req served ∧ served.answered = true ∧ req.action ∈ cancelRoutes ∧
    some agentPolicy ∈ acceptedPolicies served.trace ∧ text ∈ hmacTexts served.trace ∧
    FormCancel text ∧
    ∀ intent, .intentAccepted intent ∉ served.trace

theorem cancelsUncovered_of {a : Answers} {req : SignRequest} (hrequest : a.request = some req)
    (hsize : (bytes a.frame).length ∈ Set.Icc 1 maxMessageBytes)
    (h : (handle (env a) {} req (enclave ["binance"] .active)).1.answered = true ∧
      req.action ∈ cancelRoutes ∧
      some agentPolicy ∈ acceptedPolicies
        (handle (env a) {} req (enclave ["binance"] .active)).1.trace ∧
      text ∈ hmacTexts (handle (env a) {} req (enclave ["binance"] .active)).1.trace ∧
      FormCancel text ∧
      acceptedIntents (handle (env a) {} req (enclave ["binance"] .active)).1.trace = []) :
    CancelsUncovered a text := by
  obtain ⟨hanswered, haction, hpolicy, htext, hcancel, hintents⟩ := h
  refine ⟨_, req, _, mem_serverSteps a (enclave ["binance"] .active) hsize hrequest, rfl, hanswered,
    haction, hpolicy, htext, hcancel, fun intent hintent => ?_⟩
  rw [← mem_acceptedIntents, hintents] at hintent
  simp at hintent

end Sample

open Sample in
/-- Under a policy with an agent key, both routes sign a cancel for which the agent signed
nothing. -/
theorem cancel_uncovered :
    agentPolicy.intentPubkey = some agentPubkey ∧
      CancelsUncovered namedCancelled "symbol=BTCUSDT&orderId=7&timestamp=1700000000000" ∧
      CancelsUncovered genericCancelled "symbol=BTCUSDT&timestamp=1700000000000&recvWindow=5000" :=
  ⟨rfl, cancelsUncovered_of rfl (by decide +kernel) (by decide +kernel),
    cancelsUncovered_of rfl (by decide +kernel) (by decide +kernel)⟩

open Sample in
/-- The cancel of the sample agent is covered by its intent. -/
theorem cancels_under_intent_covered_agentCancel :
    ∃ identity secret, resolveIdentity (env agentCancelled) agentCancel
      (enclave ["binance"] .active) =
        some identity ∧
      CancelCovered (env agentCancelled) identity.customerId agentPubkey "binance"
        (handle (env agentCancelled) {} agentCancel (enclave ["binance"] .active)).1.trace
        (.hmac secret cancelOrderText) := by
  have hrequest : agentCancelled.request = some agentCancel := rfl
  have hfits : CancelFits (env agentCancelled) := by
    intro frame req cancel hreq hcancel
    obtain ⟨rfl, hsame⟩ := requestFromSlice_eq_some hreq
    obtain rfl := Option.some.inj (hrequest.symm.trans hsame)
    obtain rfl := Option.some.inj hcancel
    decide +kernel
  have hstep := mem_serverSteps agentCancelled (enclave ["binance"] .active)
      (by decide +kernel) hrequest
  obtain ⟨hanswered, htext, hpolicy⟩ :
      (handle (env agentCancelled) {} agentCancel (enclave ["binance"] .active)).1.answered = true ∧
      cancelOrderText ∈ hmacTexts (handle (env agentCancelled) {} agentCancel
        (enclave ["binance"] .active)).1.trace ∧
      some agentPolicy ∈ acceptedPolicies (handle (env agentCancelled) {} agentCancel
        (enclave ["binance"] .active)).1.trace := by decide +kernel
  obtain ⟨secret, hsigned⟩ := mem_hmacTexts.mp htext
  have hcancel : IsCancel "binance" (.hmac secret cancelOrderText) :=
    (by decide +kernel : FormCancel cancelOrderText)
  obtain ⟨identity, hidentity, hcovered⟩ :=
    (cancels_under_intent_covered_iff hfits hstep rfl hanswered
    hsigned hpolicy rfl rfl (by decide) hcancel).mpr (by decide)
  exact ⟨identity, secret, hidentity, hcovered⟩

end Signer
