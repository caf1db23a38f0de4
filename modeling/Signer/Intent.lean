import Signer.PolicyRules
import Signer.Text.Framing

/-!
# Agent intents

A policy may name a key of the agent. Orders and cancels under such a policy need the
agent's signature over the order as a whole.
-/

namespace Signer

open Text Proc

variable {I : Enclave → Prop} {order : OrderRequest} {cancel : CancelRequest} {u : Unit}

def agentIntentDomain : Bytes := bytes "signer-agent-intent-v1" ++ [0]

def intentField (s : String) : Bytes := lengthPrefixed 4 (bytes s)

def intentOption (s : Option String) : Bytes := optionPrefixed 4 (s.map bytes)

def agentIntentHeader (customerId venue : String) (action : Action) (timestampMs : UInt64)
    (nonce : String) : Bytes :=
  agentIntentDomain ++ intentField customerId ++ intentField venue ++ intentField action.name ++
    beBytes 8 timestampMs.toNat ++ intentField nonce

/-- Fields are length-prefixed, so the message determines the order. -/
def buildAgentIntentMsgOrder (customerId venue : String) (action : Action) (timestampMs : UInt64)
    (nonce : String) (order : OrderRequest) : Bytes :=
  agentIntentHeader customerId venue action timestampMs nonce ++ intentField order.symbol ++
    intentField order.side ++ intentField order.qty ++ intentField order.ordType ++
    intentOption order.price ++ [if order.reduceOnly then 1 else 0]

def buildAgentIntentMsgCancel (customerId venue : String) (action : Action) (timestampMs : UInt64)
    (nonce : String) (cancel : CancelRequest) : Bytes :=
  agentIntentHeader customerId venue action timestampMs nonce ++ intentField cancel.symbol ++
    intentField cancel.orderId

/-- Checks the agent's signature and records the intent, which is refused the second time. -/
def verifyAgentIntent (env : Env) (intentPubkeyHex : String) (intentSignatureHex : Option String)
    (intentMsg : Bytes) : Handler Unit := do
  let vk ← Proc.ofOption (hexDecodeExact 32 intentPubkeyHex) (.err .internalError)
  Proc.ensure (env.ed25519KeyValid vk) (.err .internalError)
  let sigHex ← Proc.ofOption intentSignatureHex (.err .badRequest)
  let sig ← Proc.ofOption (hexDecodeExact 64 sigHex) (.err .badRequest)
  Proc.ensure (env.ed25519Verify vk intentMsg sig) (.err .badRequest)
  let isNew ← Proc.update fun s =>
    let recorded := s.ledger.recordIfNew (hexEncode (env.sha256 intentMsg))
    (.ok recorded.1, { s with ledger := recorded.2 })
  Proc.ensure isNew (.err .badRequest)
  Proc.perform (.intentAccepted
    { pubkey := intentPubkeyHex, signature := sigHex, message := intentMsg })

def enforceAgentIntentOrder (env : Env) (policy : Option Policy) (identity : ResolvedIdentity)
    (venue : String) (action : Action) (timestampMs : UInt64) (order : OrderRequest)
    (req : SignRequest) : Handler Unit :=
  match policy.bind Policy.intentPubkey with
  | none => pure ()
  | some pk => do
    let coid ← Proc.ofOption order.clientOrderId (.err .badRequest)
    verifyAgentIntent env pk req.intentSignature
      (buildAgentIntentMsgOrder identity.customerId venue action timestampMs coid order)

def enforceAgentIntentCancel (env : Env) (policy : Option Policy) (identity : ResolvedIdentity)
    (venue : String) (action : Action) (timestampMs : UInt64) (cancel : CancelRequest)
    (req : SignRequest) : Handler Unit :=
  match policy.bind Policy.intentPubkey with
  | none => pure ()
  | some pk => do
    let nonce ← Proc.ofOption req.intentNonce (.err .badRequest)
    verifyAgentIntent env pk req.intentSignature
      (buildAgentIntentMsgCancel identity.customerId venue action timestampMs nonce cancel)

/-! ### What an accepted intent means -/

section

variable {env : Env} {policy : Option Policy} {identity : ResolvedIdentity} {venue : String}
  {action : Action} {ts : UInt64} {req : SignRequest} {s s' : Enclave} {t : List Event}

variable {signature : Option String}

theorem verifyAgentIntent_keeps
    (hI : ∀ s key, I s → I { s with ledger := (s.ledger.recordIfNew key).2 }) {pubkey : String}
    {message : Bytes} :
    (verifyAgentIntent env pubkey signature message).Keeps I := by
  simp only [verifyAgentIntent, keeps_ofOption_bind, keeps_ensure_bind]
  intro vk _ _ sigHex _ sig _ _
  refine keeps_bind (keeps_update fun s hs => hI s _ hs) fun isNew => ?_
  simp

theorem enforceAgentIntentOrder_keeps
    (hI : ∀ s key, I s → I { s with ledger := (s.ledger.recordIfNew key).2 }) :
    (enforceAgentIntentOrder env policy identity venue action ts order req).Keeps I := by
  unfold enforceAgentIntentOrder
  split
  · exact keeps_pure _
  · simp [verifyAgentIntent_keeps hI]

theorem enforceAgentIntentCancel_keeps
    (hI : ∀ s key, I s → I { s with ledger := (s.ledger.recordIfNew key).2 }) :
    (enforceAgentIntentCancel env policy identity venue action ts cancel req).Keeps I := by
  unfold enforceAgentIntentCancel
  split
  · exact keeps_pure _
  · simp [verifyAgentIntent_keeps hI]

/-- What an accepted intent was checked for. -/
structure AgentIntent.Honoured (env : Env) (s : Enclave) (i : AgentIntent) : Prop where
  verified : ∃ vk sig, hexDecodeExact 32 i.pubkey = some vk ∧ env.ed25519KeyValid vk = true ∧
    hexDecodeExact 64 i.signature = some sig ∧ env.ed25519Verify vk i.message sig = true
  fresh : (s.ledger.recordIfNew (hexEncode (env.sha256 i.message))).1 = true

theorem verifyAgentIntent_returns {pubkey : String} {message : Bytes}
    (h : (verifyAgentIntent env pubkey signature message).Returns s u s' t) :
    ∃ i : AgentIntent, i.pubkey = pubkey ∧ signature = some i.signature ∧ i.message = message ∧
      i.Honoured env s ∧ t = [.intentAccepted i] := by
  simp only [verifyAgentIntent, returns_ofOption_bind, returns_ensure_bind,
    returns_update_bind, returns_perform, Prod.mk.injEq, Except.ok.injEq] at h
  obtain ⟨vk, hvk, hvalid, sigHex, hsigHex, sig, hsig, hverify, isNew, s₁, ⟨hnew, -⟩, hfresh, -,
    rfl⟩ := h
  exact ⟨⟨pubkey, sigHex, message⟩, rfl, hsigHex, rfl,
    ⟨⟨vk, sig, hvk, hvalid, hsig, hverify⟩, hnew.trans hfresh⟩, rfl⟩

/-- The intent that the policy asks for, if any, is over this order and was honoured. -/
structure CoversOrder (env : Env) (s : Enclave) (policy : Option Policy)
    (identity : ResolvedIdentity) (venue : String) (action : Action) (ts : UInt64)
    (order : OrderRequest) (intent : Option AgentIntent) : Prop where
  key_eq : intent.map AgentIntent.pubkey = policy.bind Policy.intentPubkey
  honoured : ∀ i, intent = some i → i.Honoured env s
  message_eq : ∀ i, intent = some i → ∃ coid, order.clientOrderId = some coid ∧
    i.message = buildAgentIntentMsgOrder identity.customerId venue action ts coid order

theorem enforceAgentIntentOrder_returns
    (h : (enforceAgentIntentOrder env policy identity venue action ts order req).Returns s u s' t) :
    ∃ intent : Option AgentIntent, t = intent.toList.map .intentAccepted ∧
      CoversOrder env s policy identity venue action ts order intent := by
  unfold enforceAgentIntentOrder at h
  split at h
  · rename_i hnone
    exact ⟨none, (returns_pure.mp h).2.2, hnone.symm, by simp, by simp⟩
  · rename_i pubkey hpubkey
    obtain ⟨coid, hcoid, hverify⟩ := returns_ofOption_bind.mp h
    obtain ⟨i, rfl, -, hmessage, hhonoured, rfl⟩ := verifyAgentIntent_returns hverify
    refine ⟨some i, rfl, hpubkey.symm, ?_, ?_⟩
    · rintro _ ⟨⟩
      exact hhonoured
    · rintro _ ⟨⟩
      exact ⟨coid, hcoid, hmessage⟩

/-- The same for a cancel. -/
structure CoversCancel (env : Env) (s : Enclave) (policy : Option Policy)
    (identity : ResolvedIdentity) (venue : String) (action : Action) (ts : UInt64)
    (nonce : Option String) (cancel : CancelRequest) (intent : Option AgentIntent) : Prop where
  key_eq : intent.map AgentIntent.pubkey = policy.bind Policy.intentPubkey
  honoured : ∀ i, intent = some i → i.Honoured env s
  message_eq : ∀ i, intent = some i → ∃ n, nonce = some n ∧
    i.message = buildAgentIntentMsgCancel identity.customerId venue action ts n cancel

theorem enforceAgentIntentCancel_returns
    (h : (enforceAgentIntentCancel env policy identity venue action ts cancel req).Returns s u s'
      t) :
    ∃ intent : Option AgentIntent, t = intent.toList.map .intentAccepted ∧
      CoversCancel env s policy identity venue action ts req.intentNonce cancel intent := by
  unfold enforceAgentIntentCancel at h
  split at h
  · rename_i hnone
    exact ⟨none, (returns_pure.mp h).2.2, hnone.symm, by simp, by simp⟩
  · rename_i pubkey hpubkey
    obtain ⟨nonce, hnonce, hverify⟩ := returns_ofOption_bind.mp h
    obtain ⟨i, rfl, -, hmessage, hhonoured, rfl⟩ := verifyAgentIntent_returns hverify
    refine ⟨some i, rfl, hpubkey.symm, ?_, ?_⟩
    · rintro _ ⟨⟩
      exact hhonoured
    · rintro _ ⟨⟩
      exact ⟨nonce, hnonce, hmessage⟩

variable {g : SignResponse → SignResponse}

theorem keeps_intentOrder_bind
    (hI : ∀ s key, I s → I { s with ledger := (s.ledger.recordIfNew key).2 }) {β : Type}
    {f : Unit → Handler β} (hf : (f ()).Keeps I) :
    ((enforceAgentIntentOrder env policy identity venue action ts order req).mapError g >>=
      f).Keeps I :=
  keeps_bind (keeps_mapError (enforceAgentIntentOrder_keeps hI)) fun _ => hf

theorem keeps_intentCancel_bind
    (hI : ∀ s key, I s → I { s with ledger := (s.ledger.recordIfNew key).2 }) {β : Type}
    {f : Unit → Handler β} (hf : (f ()).Keeps I) :
    ((enforceAgentIntentCancel env policy identity venue action ts cancel req).mapError g >>=
      f).Keeps I :=
  keeps_bind (keeps_mapError (enforceAgentIntentCancel_keeps hI)) fun _ => hf

end

end Signer
