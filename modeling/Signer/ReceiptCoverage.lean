import Signer.Sample

/-!
# Which decisions leave a receipt

A request whose caller is known is decided by the mode gate or by its handler, and the
receipt of the decision is attached to the response. The rate limiter refuses earlier,
before the receipt's inputs are captured, so its refusals carry none.
-/

namespace Signer

open Text

structure DecisionReceipt.States (env : Env) (identity : ResolvedIdentity) (req : SignRequest)
    (resp : SignResponse) (r : DecisionReceipt) : Prop where
  decision_eq : r.decision = if resp.error.isNone then "allow" else "deny"
  reasonCode_eq : r.reasonCode = resp.error.elim "ok" ErrCode.text
  policyHash_eq : r.policyHash = resp.policyHash.getD ""
  customerId_eq : r.customerId = identity.customerId
  action_eq : r.action = req.action.name
  requestHash_eq : r.requestHash = hexEncode (requestDigestV1 env req)

/-- The response carries a receipt that states the decision. -/
def DecisionReceipted (env : Env) (amb : Ambient) (req : SignRequest)
    (identity : ResolvedIdentity) (s : Enclave) : Prop :=
  ∃ decided r, (handle env amb req s).1.response = { decided with receipt := some r } ∧
    decided =
      (answer env amb req identity { s with limiter := (checkRate env amb req s).2 }).1.response ∧
    r.States env identity req (handle env amb req s).1.response

section

variable {env : Env} {amb : Ambient} {req : SignRequest} {identity : ResolvedIdentity} {s : Enclave}
  {pk : Bytes}

theorem exists_issue {signer : ReceiptSigner} (draft : DecisionReceipt) (seq : SeqTable)
    (hsign : ∀ r, (signer.receipt pk r).isSome = true) :
    ∃ number sig, (SeqTable.issue signer pk draft seq).1 =
      some { draft with seq := number, signature := sig } := by
  unfold SeqTable.issue
  dsimp only
  split
  · rename_i hnone
    have hsome := hsign { draft with seq := (seq.next draft.customerId).toNat.repr }
    simp [hnone] at hsome
  · exact ⟨_, _, rfl⟩

theorem attach_eq (pre : ReceiptPre) (resp : SignResponse) {st : ReceiptStore}
    (haction : isReceiptedAction pre.action = true) (hkey : st.key = some pk)
    (hsign : ∀ r, (env.receiptSigner.receipt pk r).isSome = true) :
    ∃ number sig, (st.attach env pre resp).1 =
      { resp with receipt := some { pre.draft env resp with seq := number, signature := sig } } := by
  obtain ⟨number, sig, hissue⟩ := exists_issue (pre.draft env resp) st.seq hsign
  exact ⟨number, sig, by simp only [ReceiptStore.attach, ReceiptStore.issuePre,
    ReceiptStore.issueKey, haction, if_true, hkey, hissue]⟩

theorem handle_rateLimited (haction : isReceiptedAction req.action = true)
    (hversion : requiredProtoVersion ≤ req.protoVersion)
    (hrate : (checkRate env amb req s).1 = false) :
    (handle env amb req s).1.response = .err .rateLimited := by
  simp [handle, bypassHandler_of_receipted haction, UInt8.not_lt.mpr hversion, hrate,
    Served.refused]

theorem handle_decided (haction : isReceiptedAction req.action = true)
    (hversion : requiredProtoVersion ≤ req.protoVersion)
    (hidentity : resolveIdentity env req s = some identity)
    (hrate : (checkRate env amb req s).1 = true) :
    handle env amb req s = attachReceipt env (ReceiptPre.capture env identity req)
      (answer env amb req identity { s with limiter := (checkRate env amb req s).2 }) := by
  simp [handle, bypassHandler_of_receipted haction, UInt8.not_lt.mpr hversion, hrate, hidentity]

theorem handle_of_returns {resp : SignResponse} {s' : Enclave} {t : List Event}
    (haction : isReceiptedAction req.action = true)
    (hversion : requiredProtoVersion ≤ req.protoVersion)
    (hidentity : resolveIdentity env req s = some identity)
    (hrate : (checkRate env amb req s).1 = true) (hgate : tenantModeGate identity req = .ok ())
    (hrun : (dispatch env amb req identity).Returns
      { s with limiter := (checkRate env amb req s).2 } resp s' t) :
    (handle env amb req s).1.answered = true ∧ (handle env amb req s).1.trace = t := by
  have hanswer : answer env amb req identity { s with limiter := (checkRate env amb req s).2 } =
      (⟨resp, true, t⟩, s') := by
    simp only [answer, hgate, serve, show _ = _ from hrun]
  rw [handle_decided haction hversion hidentity hrate, hanswer]
  exact ⟨rfl, rfl⟩

/-- With a resident key and signatures that succeed, the decision on a receipted action is
receipted exactly if the caller's bucket has a token left. -/
theorem decision_receipted_iff (haction : isReceiptedAction req.action = true)
    (hversion : requiredProtoVersion ≤ req.protoVersion)
    (hidentity : resolveIdentity env req s = some identity) (hkey : s.receipts.key = some pk)
    (hsign : ∀ r, (env.receiptSigner.receipt pk r).isSome = true) :
    DecisionReceipted env amb req identity s ↔
      (s.limiter.check env.rateCapacity env.ratePerSec amb.rateNow identity.customerId).1 =
        true := by
  have hchecked : checkRate env amb req s =
      s.limiter.check env.rateCapacity env.ratePerSec amb.rateNow identity.customerId := by
    simp [checkRate, hidentity, rateKey]
  rw [← hchecked]
  constructor
  · rintro ⟨decided, r, hresponse, -⟩
    by_contra hrate
    rw [handle_rateLimited haction hversion (Bool.eq_false_of_not_eq_true hrate)] at hresponse
    simpa [SignResponse.err] using congrArg SignResponse.receipt hresponse
  · intro hrate
    have hkept : (answer env amb req identity
        { s with limiter := (checkRate env amb req s).2 }).2.receipts.key = some pk :=
      answer_keeps (I := fun x => x.receipts.key = some pk)
        (SignInvariant.handler ⟨fun _ _ h => h, fun _ _ h => h, fun _ _ h => h⟩)
        (ne_signData_of_receipted haction) hkey
    have hdecided := handle_decided haction hversion hidentity hrate
    obtain ⟨number, sig, hattach⟩ := attach_eq (ReceiptPre.capture env identity req) (answer env amb
      req identity { s with limiter := (checkRate env amb req s).2 }).1.response haction hkept hsign
    have hresponse := (congrArg (fun served => served.1.response) hdecided).trans hattach
    refine ⟨_, _, hresponse, rfl, ?_⟩
    rw [hresponse]
    exact ⟨rfl, rfl, rfl, rfl, rfl, rfl⟩

end

namespace Sample

def accountQuery : SignRequest :=
  { request .signBinance with method := some "GET", path := some "/api/v3/account", body := some "" }

def receiptBlob : Answers := { bareBlob with signature := some (List.replicate 64 1, 0) }

def receiptKey : Bytes := List.replicate 32 0x11

def halted (tokens : ℚ) : Enclave :=
  { enclave ["binance"] .halted with
    receipts := { key := some receiptKey }
    limiter := { buckets := AList.singleton customer { tokens, lastRefill := 0 }
                 insertionOrder := [customer] } }

theorem receiptBlob_signs (pk : Bytes) (r : DecisionReceipt) :
    ((env receiptBlob).receiptSigner.receipt pk r).isSome = true := by
  obtain ⟨canonical, hcanonical⟩ := Option.isSome_iff_exists.mp (canonicalV1_strings_isSome
    [("v", r.v), ("decision", r.decision), ("reason_code", r.reasonCode),
      ("customer_id", r.customerId), ("action", r.action), ("request_hash", r.requestHash),
      ("intent_sig_hash", r.intentSigHash), ("policy_hash", r.policyHash),
      ("supplied_ts_ms", r.suppliedTsMs), ("boot_id", r.bootId), ("seq", r.seq)])
  simp only [Env.receiptSigner, signingPayload, hcanonical]
  rfl

end Sample

open Sample in
/-- A tenant out of tokens is refused without a receipt, although the receipt key is
resident and signs. -/
theorem rateLimited_decision_unreceipted :
    isReceiptedAction accountQuery.action = true ∧
      requiredProtoVersion ≤ accountQuery.protoVersion ∧
      resolveIdentity (env receiptBlob) accountQuery (halted 0) =
        some (identity ["binance"] .halted) ∧
      (halted 0).receipts.key = some receiptKey ∧
      (∀ r, ((env receiptBlob).receiptSigner.receipt receiptKey r).isSome = true) ∧
      ¬ DecisionReceipted (env receiptBlob) {} accountQuery (identity ["binance"] .halted)
        (halted 0) := by
  refine ⟨by decide, by decide, by decide +kernel, rfl, receiptBlob_signs _, ?_⟩
  rintro ⟨decided, r, hresponse, -⟩
  have hnone : (handle (env receiptBlob) {} accountQuery (halted 0)).1.response.receipt = none := by
    decide +kernel
  rw [hresponse] at hnone
  cases hnone

open Sample in
/-- The refusal of a halted tenant with a token left is receipted. -/
theorem decision_receipted_iff_halted :
    DecisionReceipted (env receiptBlob) {} accountQuery (identity ["binance"] .halted) (halted 1) :=
  (decision_receipted_iff (by decide) (by decide) (by decide +kernel) rfl
    (receiptBlob_signs _)).mpr (by decide +kernel)

end Signer
