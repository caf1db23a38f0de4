import Signer.Gateway.Limits
import Signer.Uint256
import Signer.VsockServer

/-!
# Payments through the gateway

A payment request is charged against the daily total of its payer key and then forwarded to the
enclave, which parses the amount once more and signs it. The gateway reads the amount as a `u128`
with the standard parser, the enclave as a `uint256` with its own. The text is forwarded as it came,
so what is signed is what was charged.
-/

namespace Signer.Gateway

structure SignX402Request where
  keyId : String
  x402 : X402Request

inductive GatewayCode where
  | badRequest
  | internalError
  | rateLimited
  | enclaveUnreachable
  | enclave (code : ErrCode)
  deriving DecidableEq, Repr

structure PaymentGateway where
  limits : Limits
  blobs : String → Option Bytes
  sha256 : Bytes → Bytes
  spendCodec : AtomicFile.Codec (DayState (BitVec 128))
  base64Encode : Bytes → String
  requestToVec : SignRequest → Option Bytes

def blobKey (customerId stem : String) : String := customerId ++ "/" ++ stem

def isSafeKeyId (v : String) : Bool :=
  v ≠ "" ∧ v.utf8ByteSize ≤ 64 ∧
    v.toList.all fun c => Text.isAsciiAlphanumeric c || c == '_' || c == '-' || c == '.'

def denyCode : LimitDecision → Option GatewayCode
  | .allow => none
  | .rateLimited _ | .dailyCapExhausted _ | .x402CapExhausted _ => some .rateLimited
  | .counterUnavailable => some .internalError

structure Payment where
  scope : String
  token : String
  blob : Bytes
  x402 : X402Request
  value : BitVec 128
  value_eq : Text.parseUnsigned (2 ^ 128) (Text.trim x402.value) = some value.toNat

structure InFlight extends Payment where
  day : Nat

inductive PaymentReply where
  | ok (signature sender : String)
  | denied (code : GatewayCode)
  deriving DecidableEq, Repr

structure RoundTrip where
  creds : Option AwsCredentials
  nowMs : UInt64
  backoffAllows : Bool
  sent : Bool
  received : Bool
  amb : Ambient
  enclave : Enclave

namespace PaymentGateway

/-- `post_sign_x402` up to the spend gate. -/
def admitPayment (gateway : PaymentGateway) (customer token : String) (req : SignX402Request) :
    Except GatewayCode Payment :=
  if !isSafeKeyId req.keyId then .error .badRequest
  else
    match gateway.blobs (blobKey customer req.keyId) with
    | none => .error .badRequest
    | some blob =>
      match h : Text.parseUnsigned (2 ^ 128) (Text.trim req.x402.value) with
      | none => .error .badRequest
      | some v =>
        .ok { scope := blobKey customer req.keyId, token, blob, x402 := req.x402,
              value := BitVec.ofNat 128 v
              value_eq := by
                have hlt := Text.parseUnsigned_lt (by decide) h
                rw [h, BitVec.toNat_ofNat, Nat.mod_eq_of_lt hlt] }

def x402SpendGate (gateway : PaymentGateway) (reads writes : Bool) (payment : Payment) (now : Nat)
    (store : DayStore (BitVec 128)) : LimitDecision × DayStore (BitVec 128) :=
  if gateway.limits.x402PeriodCap.isNone then (.allow, store)
  else gateway.limits.checkAndCountX402Spend gateway.sha256 gateway.spendCodec reads writes
    payment.scope payment.value now store

def vsockRequest (gateway : PaymentGateway) (payment : Payment) (creds : AwsCredentials)
    (nowMs : UInt64) : SignRequest where
  action := .signX402Eip3009
  protoVersion := 1
  opaqueToken := some payment.token
  timestampMs := some nowMs
  awsCredentials := some creds
  ciphertextBlobBase64 := some (gateway.base64Encode payment.blob)
  x402 := some payment.x402

def readReply (resp : SignResponse) : PaymentReply :=
  match resp.error with
  | some code => .denied (.enclave code)
  | none =>
    let headers := resp.headers.getD []
    match headers.lookup "signature", headers.lookup "from" with
    | some signature, some sender => .ok signature sender
    | _, _ => .denied .internalError

/-- `post_sign_x402` after the spend gate: the reply, and what the enclave made of the request. -/
def forward (gateway : PaymentGateway) (env : Env) (payment : Payment) (trip : RoundTrip) :
    PaymentReply × Option (SignRequest × Served) :=
  match trip.creds with
  | none => (.denied .internalError, none)
  | some creds =>
    if !trip.backoffAllows then (.denied .rateLimited, none)
    else
      match gateway.requestToVec (gateway.vsockRequest payment creds trip.nowMs) with
      | none => (.denied .enclaveUnreachable, none)
      | some body =>
        if maxMessageBytes < body.length ∨ !trip.sent then (.denied .enclaveUnreachable, none)
        else
          let stream := Text.lengthPrefixed lengthPrefixBytes body
          match (handleConnection env ⟨stream, trip.amb⟩ trip.enclave).1 with
          | .dropped => (.denied .enclaveUnreachable, none)
          | .rejected code =>
            (if trip.received then readReply (.err code) else .denied .enclaveUnreachable, none)
          | .served req served =>
            (if trip.received then readReply served.response else .denied .enclaveUnreachable,
              some (req, served))

/-- The enclave reads the request that the gateway wrote. -/
def ReadsBack (gateway : PaymentGateway) (env : Env) : Prop :=
  ∀ payment creds nowMs body,
    gateway.requestToVec (gateway.vsockRequest payment creds nowMs) = some body →
      env.requestFromSlice body = some (gateway.vsockRequest payment creds nowMs)

end PaymentGateway

end Signer.Gateway

namespace Signer

/-! ### What the enclave signs -/

def transfersOf (t : List Event) : List TransferAuthorization :=
  t.filterMap fun
    | .signed (.eip3009 _ transfer) => some transfer
    | _ => none

section

variable {env : Env} {amb : Ambient} {req : SignRequest} {identity : ResolvedIdentity}
  {s s' : Enclave} {resp : SignResponse} {t : List Event} {served : Served}

def Declines {α : Type} (h : Handler α) : Prop :=
  h.Ends (fun _ => True) (fun resp => resp.error.isSome = true) fun _ => True

theorem isSome_error_denyUnder {policyHash : Option String} {code : ErrCode} :
    (denyUnder policyHash code).error.isSome = true := by
  cases policyHash <;> rfl

theorem declines_underPolicy {α : Type} {policyHash : Option String} {x : Except ErrCode α} :
    Declines (underPolicy policyHash x) := by
  refine Proc.ends_ofExcept (fun resp hresp => ?_) fun _ _ => trivial
  cases x with
  | error code =>
    obtain rfl := Except.error.inj hresp
    exact isSome_error_denyUnder
  | ok a => cases hresp

theorem declines_openBlob : Declines (openBlob env amb req identity) := by
  have hload : Declines ((loadAndParseBlob env amb req identity).mapError
      LoadSecretError.response) :=
    Proc.ends_mapError (fun _ _ _ => trivial) fun e => by cases e <;> rfl
  refine Proc.ends_bind hload fun loaded _ => ?_
  refine Proc.ends_bind (A := fun _ => True) ?_ fun _ _ => Proc.ends_pure trivial
  refine Proc.ends_ofExcept (fun resp hresp => ?_) fun _ _ => trivial
  unfold enforcePolicy at hresp
  split at hresp
  · cases hresp
  · obtain rfl := Except.error.inj hresp
    exact isSome_error_denyUnder

theorem declines_ownKey {privateKey address : String} {policyHash : Option String} :
    Declines (ownKey env privateKey address policyHash) :=
  Proc.ends_ofOption_bind isSome_error_denyUnder fun _ =>
    Proc.ends_ofOption_bind isSome_error_denyUnder fun _ =>
    Proc.ends_ofOption_bind isSome_error_denyUnder fun _ =>
    Proc.ends_ensure_bind isSome_error_denyUnder (Proc.ends_pure trivial)

theorem declines_handleSignX402Eip3009 :
    Declines (handleSignX402Eip3009 env amb req identity) := by
  unfold handleSignX402Eip3009
  refine Proc.ends_ofOption_bind rfl fun x402 => Proc.ends_ensure_bind rfl ?_
  refine Proc.ends_bind declines_openBlob fun blob _ => ?_
  refine Proc.ends_ofOption_bind isSome_error_denyUnder fun transfer => ?_
  refine Proc.ends_bind declines_underPolicy fun _ _ => ?_
  refine Proc.ends_ofOption_bind isSome_error_denyUnder fun secret => ?_
  refine Proc.ends_bind declines_ownKey fun key _ => ?_
  refine Proc.ends_ensure_bind isSome_error_denyUnder ?_
  refine Proc.ends_ofOption_bind isSome_error_denyUnder fun signature => ?_
  exact Proc.ends_bind (Proc.ends_perform trivial) fun _ _ => Proc.ends_pure trivial

theorem handleSignX402Eip3009_returns
    (h : (handleSignX402Eip3009 env amb req identity).Returns s resp s' t) :
    ∃ x402 transfer key signature sender, req.x402 = some x402 ∧
      transferOf x402 = some transfer ∧ signX402Eip3009 env key transfer = some signature ∧
      resp.headers = some [("from", sender), ("signature", signature)] ∧
      transfersOf t = [transfer] := by
  simp only [handleSignX402Eip3009, Proc.returns_ofOption_bind, Proc.returns_ensure_bind,
    returns_openBlob_bind, returns_underPolicy_bind, returns_completeSecret_bind,
    returns_ownKey_bind, returns_releaseSignature] at h
  obtain ⟨x402, hx402, -, blob, venue, s₁, t₁, -, ⟨transfer, htransfer, _, -, secret, -, key, -, -,
    signature, hsignature, rfl, rfl, rfl⟩, rfl⟩ := h
  exact ⟨x402, transfer, key.1, signature, "0x" ++ Text.hexEncode key.2, hx402, htransfer,
    hsignature, rfl, rfl⟩

theorem attach_error_headers (env : Env) (pre : ReceiptPre) (resp : SignResponse)
    (st : ReceiptStore) :
    (st.attach env pre resp).1.error = resp.error ∧
      (st.attach env pre resp).1.headers = resp.headers := by
  unfold ReceiptStore.attach
  dsimp only
  split <;> exact ⟨rfl, rfl⟩

theorem handle_payment (haction : req.action = .signX402Eip3009)
    (h : handle env amb req s = (served, s')) (herror : served.response.error = none) :
    ∃ identity limiter resp s₁,
      (handleSignX402Eip3009 env amb req identity).Returns { s with limiter := limiter } resp s₁
        served.trace ∧ served.response.headers = resp.headers := by
  have hbypass : bypassHandler env amb req = none :=
    bypassHandler_of_receipted (by rw [haction]; decide)
  have hrefused : ∀ code, (Served.refused code).response.error ≠ none := fun code => nofun
  simp only [handle, hbypass] at h
  split at h
  · obtain ⟨rfl, -⟩ := Prod.mk.inj h
    exact absurd herror (hrefused _)
  split at h
  · obtain ⟨rfl, -⟩ := Prod.mk.inj h
    exact absurd herror (hrefused _)
  split at h
  · obtain ⟨rfl, -⟩ := Prod.mk.inj h
    exact absurd herror (hrefused _)
  · rename_i identity _
    obtain ⟨rfl, -⟩ := Prod.mk.inj h
    have hattach := attach_error_headers env (ReceiptPre.capture env identity req)
    simp only [hattach] at herror ⊢
    have hdispatch : dispatch env amb req identity =
        handleSignX402Eip3009 env amb req identity := by
      simp only [dispatch, haction]
    unfold answer at herror ⊢
    split at herror
    · exact absurd herror (hrefused _)
    · rw [hdispatch] at herror ⊢
      simp only [serve] at herror ⊢
      refine ⟨identity, (checkRate env amb req s).2, ?_⟩
      rcases hrun : (handleSignX402Eip3009 env amb req identity).run
        { s with limiter := (checkRate env amb req s).2 } with ⟨resp | resp, s₁, t⟩
      · rw [hrun] at herror
        have hsome := declines_handleSignX402Eip3009.refused _ resp (by rw [hrun])
        dsimp only at herror
        rw [herror] at hsome
        cases hsome
      · exact ⟨resp, s₁, hrun, rfl⟩

theorem value_of_transferOf {x402 : X402Request} {transfer : TransferAuthorization}
    (h : transferOf x402 = some transfer) : parseU256Decimal x402.value = some transfer.value := by
  simp only [transferOf, do_eq_some, pure_eq_some] at h
  obtain ⟨_, -, _, -, _, -, value, hvalue, _, -, rfl⟩ := h
  exact hvalue

end

namespace Gateway.PaymentGateway

variable {gateway : PaymentGateway} {env : Env} {payment : Payment} {trip : RoundTrip}

theorem forward_served (hreads : gateway.ReadsBack env) {reply : PaymentReply} {req : SignRequest}
    {served : Served} (h : gateway.forward env payment trip = (reply, some (req, served))) :
    (∃ creds, req = gateway.vsockRequest payment creds trip.nowMs) ∧
      (∃ s', handle env trip.amb req trip.enclave = (served, s')) ∧
      reply = if trip.received then readReply served.response else .denied .enclaveUnreachable := by
  unfold forward at h
  split at h
  · cases h
  rename_i creds _
  split at h
  · cases h
  split at h
  · cases h
  rename_i body hbody
  split at h
  · cases h
  rename_i hsent
  have hparsed := hreads payment creds trip.nowMs body hbody
  have hne : body ≠ [] := by
    rintro rfl
    simp [handleConnection, readFrame, Text.lengthPrefixed, Text.beBytes, lengthPrefixBytes,
      frameLength] at h
  have hframe : readFrame (Text.lengthPrefixed lengthPrefixBytes body) = .ok body :=
    readFrame_lengthPrefixed hne (by omega)
  simp only [handleConnection, hframe, hparsed, Prod.mk.injEq, Option.some.injEq] at h
  obtain ⟨rfl, rfl, rfl⟩ := h
  exact ⟨⟨creds, rfl⟩, ⟨_, rfl⟩, rfl⟩

theorem forward_denied {reply : PaymentReply}
    (h : gateway.forward env payment trip = (reply, none)) : ∃ code, reply = .denied code := by
  have hdenied : ∀ {code : GatewayCode} {exchange : Option (SignRequest × Served)},
      (.denied code, exchange) = (reply, (none : Option (SignRequest × Served))) →
        ∃ code, reply = .denied code := fun heq => ⟨_, (Prod.mk.inj heq).1.symm⟩
  unfold forward at h
  split at h
  · exact hdenied h
  split at h
  · exact hdenied h
  split at h
  · exact hdenied h
  split at h
  · exact hdenied h
  dsimp only at h
  split at h
  · exact hdenied h
  · split at h <;> exact hdenied h
  · cases (Prod.mk.inj h).2

theorem forward_ok (hreads : gateway.ReadsBack env) {signature sender : String}
    {exchange : Option (SignRequest × Served)}
    (h : gateway.forward env payment trip = (.ok signature sender, exchange)) :
    ∃ req served transfer key, exchange = some (req, served) ∧
      transferOf payment.x402 = some transfer ∧ signX402Eip3009 env key transfer = some signature ∧
      transfersOf served.trace = [transfer] ∧ transfer.value = payment.value.toNat := by
  have hsome : ∃ req served, exchange = some (req, served) := by
    cases exchange with
    | some pair => exact ⟨pair.1, pair.2, rfl⟩
    | none =>
      obtain ⟨code, hcode⟩ := forward_denied h
      cases hcode
  obtain ⟨req, served, rfl⟩ := hsome
  obtain ⟨⟨creds, rfl⟩, ⟨s', hhandle⟩, hreply⟩ := forward_served hreads h
  -- an error in the response would have been passed on
  have hread : readReply served.response = .ok signature sender := by
    split at hreply
    · exact hreply.symm
    · cases hreply
  unfold readReply at hread
  split at hread
  · cases hread
  rename_i herror
  obtain ⟨identity, limiter, resp, s₁, hrun, hheaders⟩ := handle_payment rfl hhandle herror
  obtain ⟨x402, transfer, key, signature', sender', hx402, htransfer, hsigned, hresp, htransfers⟩ :=
    handleSignX402Eip3009_returns hrun
  obtain rfl : payment.x402 = x402 := Option.some.inj hx402
  have hlookup : [("from", sender'), ("signature", signature')].lookup "signature" =
    some signature' := rfl
  have hsender : [("from", sender'), ("signature", signature')].lookup "from" =
    some sender' := rfl
  simp only [hheaders, hresp, Option.getD_some, hlookup, hsender, PaymentReply.ok.injEq] at hread
  obtain ⟨rfl, -⟩ := hread
  exact ⟨_, served, transfer, key, rfl, htransfer, hsigned, htransfers,
    parseU256Decimal_agrees (value_of_transferOf htransfer) payment.value_eq⟩

end Gateway.PaymentGateway

end Signer
