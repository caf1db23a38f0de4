import Mathlib.Data.List.AList
import Signer.Eip712
import Signer.Registry

/-!
# Decision receipts

Every decision on a tenant's request is numbered, signed and attached to the response.
The resident key and the counters are guarded by two locks, so issuing takes two
critical sections: the key is copied, and later the number is chosen, signed over and
committed in one section. A heartbeat copies the key and reads a counter.
-/

namespace Signer

open Text

abbrev SeqTable := AList fun _ : String => UInt64

structure ReceiptStore where
  key : Option Bytes := none
  seq : SeqTable := ∅

structure ReceiptSigner where
  receipt : Bytes → DecisionReceipt → Option HlSignature
  heartbeat : Bytes → ReceiptHeartbeat → Option HlSignature

def HlSignature.blank : HlSignature := { r := "", s := "", v := 0 }

/-! ### The request digest -/

def optionalString (s : Option String) : Json := s.elim .null .string

def OrderRequest.toJson (o : OrderRequest) : Json :=
  .object [("symbol", .string o.symbol), ("side", .string o.side), ("qty", .string o.qty),
    ("ord_type", .string o.ordType), ("price", optionalString o.price),
    ("reduce_only", .bool o.reduceOnly), ("client_order_id", optionalString o.clientOrderId)]

def CancelRequest.toJson (c : CancelRequest) : Json :=
  .object [("symbol", .string c.symbol), ("order_id", .string c.orderId)]

def X402Request.toJson (x : X402Request) : Json :=
  .object [("token_name", .string x.tokenName), ("token_version", .string x.tokenVersion),
    ("chain_id", Policy.unsigned x.chainId), ("token_address", .string x.tokenAddress),
    ("from", .string x.sender), ("to", .string x.recipient), ("value", .string x.value),
    ("valid_after", Policy.unsigned x.validAfter), ("valid_before", Policy.unsigned x.validBefore),
    ("nonce", .string x.nonce)]

def Permit2Request.toJson (p : Permit2Request) : Json :=
  .object [("chain_id", Policy.unsigned p.chainId),
    ("verifying_contract", .string p.verifyingContract), ("token", .string p.token),
    ("amount", .string p.amount), ("expiration", Policy.unsigned p.expiration),
    ("nonce", Policy.unsigned p.nonce), ("spender", .string p.spender),
    ("sig_deadline", .string p.sigDeadline)]

/-- `push_field`: a field behind its length. -/
def digestField (b : Bytes) : Bytes := beBytes 8 b.length ++ b

def digestString (s : Option String) : Bytes := digestField (bytes (s.getD ""))

def digestNumber (n : Option UInt64) : Bytes :=
  digestField (bytes (n.elim "" fun x => x.toNat.repr))

def digestJson (env : Env) (value : Option Json) : Bytes :=
  digestField ((value.bind env.jsonToVec).getD [])

/-- The bytes `request_digest_v1` hashes. -/
def requestDigestInput (env : Env) (req : SignRequest) : Bytes :=
  digestField (bytes req.action.name) ++ digestString req.method ++ digestString req.path ++
    digestString req.query ++ digestString req.body ++ digestString req.op ++
    digestString req.payload ++ digestNumber req.timestampMs ++ digestJson env req.hlAction ++
    digestNumber req.nonce ++ digestString req.vaultAddress ++
    digestJson env (req.order.map OrderRequest.toJson) ++
    digestJson env (req.cancel.map CancelRequest.toJson) ++
    digestJson env (req.x402.map X402Request.toJson) ++
    digestJson env (req.permit2.map Permit2Request.toJson) ++ digestString req.data

def requestDigestV1 (env : Env) (req : SignRequest) : Bytes :=
  env.sha256 (requestDigestInput env req)

/-! ### Issuing -/

/-- `is_receipted_action`: the tenant actions that are decisions. -/
def isReceiptedAction (action : Action) : Bool :=
  startsWith action.name "sign_" ∧ action.name ≠ "sign_data" ∧ action.name ≠ "sign"

structure ReceiptPre where
  customerId : String
  action : Action
  requestHash : String
  intentSigHash : String
  suppliedTsMs : String

def ReceiptPre.capture (env : Env) (identity : ResolvedIdentity) (req : SignRequest) :
    ReceiptPre where
  customerId := identity.customerId
  action := req.action
  requestHash := hexEncode (requestDigestV1 env req)
  intentSigHash := req.intentSignature.elim "" fun s => hexEncode (env.sha256 (bytes s))
  suppliedTsMs := req.timestampMs.elim "" fun t => t.toNat.repr

def ReceiptPre.draft (env : Env) (pre : ReceiptPre) (resp : SignResponse) : DecisionReceipt where
  v := "1"
  decision := if resp.error.isNone then "allow" else "deny"
  reasonCode := resp.error.elim "ok" ErrCode.text
  customerId := pre.customerId
  action := pre.action.name
  requestHash := pre.requestHash
  intentSigHash := pre.intentSigHash
  policyHash := resp.policyHash.getD ""
  suppliedTsMs := pre.suppliedTsMs
  bootId := hexEncode env.bootId
  seq := ""
  signature := .blank

/-- `signing_payload`: the signed fields of a receipt. -/
def signingPayload (r : DecisionReceipt) : Option Bytes :=
  canonicalV1 (.object ([("v", r.v), ("decision", r.decision), ("reason_code", r.reasonCode),
    ("customer_id", r.customerId), ("action", r.action), ("request_hash", r.requestHash),
    ("intent_sig_hash", r.intentSigHash), ("policy_hash", r.policyHash),
    ("supplied_ts_ms", r.suppliedTsMs), ("boot_id", r.bootId), ("seq", r.seq)].map
      fun m => (m.1, .string m.2)))

/-- `heartbeat_signing_payload`: the signed fields of a heartbeat. -/
def heartbeatSigningPayload (h : ReceiptHeartbeat) : Option Bytes :=
  canonicalV1 (.object ([("v", h.v), ("boot_id", h.bootId), ("customer_id", h.customerId),
    ("seq_next", h.seqNext), ("client_nonce", h.clientNonce),
    ("registry_version", h.registryVersion), ("entry_hash", h.entryHash)].map
      fun m => (m.1, .string m.2)))

def receiptDigestV1 (env : Env) (canonical : Bytes) : Bytes :=
  env.keccak256 (bytes "usenami-decision-receipt-v1" ++ canonical)

def heartbeatDigestV1 (env : Env) (canonical : Bytes) : Bytes :=
  env.keccak256 (bytes "usenami-receipt-heartbeat-v1" ++ canonical)

/-- `sign_receipt` and the signing of a heartbeat. -/
def Env.receiptSigner (env : Env) : ReceiptSigner where
  receipt pk r := do
    let canonical ← signingPayload r
    signEip712Digest env pk (receiptDigestV1 env canonical)
  heartbeat pk h := do
    let canonical ← heartbeatSigningPayload h
    signEip712Digest env pk (heartbeatDigestV1 env canonical)

namespace SeqTable

/-- `seq_next_for`: how many receipts a customer has been issued. -/
def next (seq : SeqTable) (customer : String) : UInt64 := (seq.lookup customer).getD 0

/-- The counter section of `issue_pre`: make sure the customer has a counter, number the
receipt, sign it, and commit only if signing succeeded. -/
def issue (signer : ReceiptSigner) (pk : Bytes) (draft : DecisionReceipt) (seq : SeqTable) :
    Option DecisionReceipt × SeqTable :=
  let candidate := seq.next draft.customerId
  let seq := if draft.customerId ∈ seq then seq else seq.insert draft.customerId 0
  let numbered := { draft with seq := candidate.toNat.repr }
  match signer.receipt pk numbered with
  | none => (none, seq)
  | some sig =>
    (some { numbered with signature := sig }, seq.insert draft.customerId (candidate + 1))

end SeqTable

/-- The key section of `issue_pre`: a copy of the resident key, if the action is receipted
and there is one. -/
def ReceiptStore.issueKey (pre : ReceiptPre) (st : ReceiptStore) : Option Bytes :=
  if isReceiptedAction pre.action then st.key else none

/-- `issue_pre`, both sections without another request between them. -/
def ReceiptStore.issuePre (env : Env) (pre : ReceiptPre) (resp : SignResponse)
    (st : ReceiptStore) : Option DecisionReceipt × ReceiptStore :=
  match st.issueKey pre with
  | none => (none, st)
  | some pk =>
    let issued := SeqTable.issue env.receiptSigner pk (pre.draft env resp) st.seq
    (issued.1, { st with seq := issued.2 })

/-- `attach`: put a receipt on a finished response if one is issued. -/
def ReceiptStore.attach (env : Env) (pre : ReceiptPre) (resp : SignResponse)
    (st : ReceiptStore) : SignResponse × ReceiptStore :=
  let issued := st.issuePre env pre resp
  match issued.1 with
  | some r => ({ resp with receipt := some r }, issued.2)
  | none => (resp, issued.2)

/-- `install_key`: a different key replaces the resident one. -/
def ReceiptStore.installKey (pk : Bytes) (st : ReceiptStore) : ReceiptStore :=
  if st.key = some pk then st else { st with key := some pk }

def ReceiptStore.publicKeyCompressed (env : Env) (st : ReceiptStore) : Option Bytes := do
  let pk ← st.key
  let pubkeys ← attestedDataPubkey env pk
  hexDecode (stripHexMark pubkeys.1)

/-! ### Heartbeats -/

inductive HeartbeatUnavailable where
  | noKey
  | internal (why : String)
  deriving DecidableEq, Repr

def maxClientNonceLen : Nat := 128

def heartbeatDraft (env : Env) (customerId clientNonce entryHash : String) (seqNext : UInt64)
    (registryVersion : UInt64) : ReceiptHeartbeat where
  v := "1"
  bootId := hexEncode env.bootId
  customerId := customerId
  seqNext := seqNext.toNat.repr
  clientNonce := clientNonce
  registryVersion := registryVersion.toNat.repr
  entryHash := entryHash
  signature := .blank

/-- The key section of `issue_heartbeat`: a copy of the key, with the digest of the entry. -/
def ReceiptStore.heartbeatKey (env : Env) (identity : ResolvedIdentity) (st : ReceiptStore) :
    Except HeartbeatUnavailable (Bytes × String) :=
  match st.key with
  | none => .error .noKey
  | some pk =>
    match identity.entryHash env with
    | none => .error (.internal "entry_not_canonical")
    | some entryHash => .ok (pk, entryHash)

/-- The counter section of `issue_heartbeat`: the counter is read into the document, which
is signed. -/
def SeqTable.heartbeat (env : Env) (signer : ReceiptSigner) (pk : Bytes) (entryHash : String)
    (identity : ResolvedIdentity) (clientNonce : String) (registryVersion : UInt64)
    (seq : SeqTable) : Except HeartbeatUnavailable ReceiptHeartbeat :=
  let hb := heartbeatDraft env identity.customerId clientNonce entryHash
    (seq.next identity.customerId) registryVersion
  if (heartbeatSigningPayload hb).isNone then .error (.internal "canonical_failed")
  else
    match signer.heartbeat pk hb with
    | none => .error (.internal "sign_failed")
    | some sig => .ok { hb with signature := sig }

/-- `issue_heartbeat`, both sections without another request between them. -/
def ReceiptStore.issueHeartbeat (env : Env) (identity : ResolvedIdentity) (clientNonce : String)
    (registryVersion : UInt64) (st : ReceiptStore) :
    Except HeartbeatUnavailable ReceiptHeartbeat :=
  match st.heartbeatKey env identity with
  | .error e => .error e
  | .ok (pk, entryHash) =>
    SeqTable.heartbeat env env.receiptSigner pk entryHash identity clientNonce registryVersion st.seq

theorem SeqTable.heartbeat_ok {env : Env} {signer : ReceiptSigner} {pk : Bytes}
    {entryHash clientNonce : String} {identity : ResolvedIdentity} {version : UInt64}
    {seq : SeqTable} {hb : ReceiptHeartbeat}
    (h : SeqTable.heartbeat env signer pk entryHash identity clientNonce version seq = .ok hb) :
    ∃ sig, hb = { heartbeatDraft env identity.customerId clientNonce entryHash
      (seq.next identity.customerId) version with signature := sig } := by
  unfold heartbeat at h
  dsimp only at h
  split at h
  · cases h
  · split at h
    · cases h
    · cases h
      exact ⟨_, rfl⟩

end Signer
