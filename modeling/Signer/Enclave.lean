import Signer.Canonical
import Signer.DekCache
import Signer.RateLimiter
import Signer.Receipt
import Signer.Tofu

/-!
# The state of the enclave

All state is in memory: the tenant registry, the pinned policy keys, the intent ledger,
the rate limiter, the data-key cache and the receipt store. Handlers are procedures over
this state whose trace records the operations results are stated about: a blob that was
accepted, an intent that was honoured, and every message that was signed.
-/

namespace Signer

structure Enclave where
  registry : Registry := {}
  pins : PinStore := ∅
  ledger : IntentLedger := {}
  limiter : RateLimiter := {}
  dekCache : DekCache := {}
  receipts : ReceiptStore := {}

/-- What was signed, and with which key. -/
inductive SignedMessage where
  | hmac (secret text : String)
  | hyperliquid (key : Bytes) (action : Json) (nonce : UInt64) (vault : Option Bytes)
      (source : String)
  | asterdex (key : Bytes) (msg : String)
  | eip3009 (key : Bytes) (transfer : TransferAuthorization)
  | permit2 (key : Bytes) (permit : PermitSingle)
  | attestedData (key : Bytes) (value : Json)

structure AgentIntent where
  pubkey : String
  signature : String
  message : Bytes
  deriving DecidableEq, Repr

/-- The operations results are stated about. -/
inductive Event where
  | blobAccepted (customer venue : String) (policy : Option Policy) (secret : Json)
  | intentAccepted (intent : AgentIntent)
  | signed (message : SignedMessage)

abbrev Handler (α : Type) := Proc Enclave Event SignResponse α

def hmacTexts (t : List Event) : List String :=
  t.filterMap fun
    | .signed (.hmac _ text) => some text
    | _ => none

theorem mem_hmacTexts {t : List Event} {text : String} :
    text ∈ hmacTexts t ↔ ∃ secret, Event.signed (.hmac secret text) ∈ t := by
  simp only [hmacTexts, List.mem_filterMap]
  constructor
  · rintro ⟨e, he, htext⟩
    split at htext
    · rename_i secret text'
      obtain rfl : text' = text := Option.some.inj htext
      exact ⟨secret, he⟩
    · exact absurd htext (by simp)
  · rintro ⟨secret, he⟩
    exact ⟨_, he, rfl⟩

def venueMessages (t : List Event) : List (Bytes × String) :=
  t.filterMap fun
    | .signed (.hmac secret text) => some (Text.bytes secret, text)
    | .signed (.asterdex key msg) => some (key, msg)
    | _ => none

theorem exists_signed_of_mem_venueMessages {t : List Event} {key : Bytes} {text : String}
    (h : (key, text) ∈ venueMessages t) : ∃ message, Event.signed message ∈ t := by
  obtain ⟨e, he, hmessage⟩ := List.mem_filterMap.mp h
  split at hmessage
  · exact ⟨_, he⟩
  · exact ⟨_, he⟩
  · cases hmessage

def acceptedPolicies (t : List Event) : List (Option Policy) :=
  t.filterMap fun
    | .blobAccepted _ _ policy _ => some policy
    | _ => none

def acceptedIntents (t : List Event) : List AgentIntent :=
  t.filterMap fun
    | .intentAccepted intent => some intent
    | _ => none

theorem mem_acceptedIntents {t : List Event} {intent : AgentIntent} :
    intent ∈ acceptedIntents t ↔ .intentAccepted intent ∈ t := by
  simp only [acceptedIntents, List.mem_filterMap]
  constructor
  · rintro ⟨e, he, hintent⟩
    split at hintent
    · cases hintent
      exact he
    · cases hintent
  · intro he
    exact ⟨_, he, rfl⟩

structure SignInvariant (I : Enclave → Prop) : Prop where
  dekCache : ∀ s cache, I s → I { s with dekCache := cache }
  pins : ∀ s pins, I s → I { s with pins := pins }
  ledger : ∀ s ledger, I s → I { s with ledger := ledger }

def releaseHeaders (h : HmacHeaders) (policyHash : Option String) : Handler SignResponse := do
  Proc.perform (.signed (.hmac h.secret h.message))
  pure ((SignResponse.okHeaders h.headers).withPolicyHash policyHash)

/-- `deny_under`: a refusal that names the policy in force. -/
def denyUnder (policyHash : Option String) (code : ErrCode) : SignResponse :=
  (SignResponse.err code).withPolicyHash policyHash

end Signer
