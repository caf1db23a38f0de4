import Signer.Sample

/-!
# Responses name the policy

A request is decided in two parts. Before its blob is loaded no policy is known and a refusal
carries no hash. From then on the policy of the blob is in force, and the response carries its hash,
whether it is a signature or a refusal.
-/

namespace Signer

open Proc

variable {code : ErrCode} {t : List Event} {resp : SignResponse} {ts : UInt64}
  {policy : Option Policy}

def NotBlob (op : Event) : Prop :=
  ∀ customerId venue policy secret, op ≠ .blobAccepted customerId venue policy secret

abbrev Under {α : Type} (hash : Option String) (A : α → Prop) (p : Handler α) : Prop :=
  p.Ends NotBlob (·.policyHash = hash) A

abbrev AnswersUnder (hash : Option String) (h : Handler SignResponse) : Prop :=
  Under hash (·.policyHash = hash) h

section

variable {env : Env} {amb : Ambient} {req : SignRequest} {identity : ResolvedIdentity}
  {hash : Option String} {α β : Type} {A : β → Prop}

@[simp]
theorem denyUnder_policyHash : (denyUnder hash code).policyHash = hash := rfl

variable {message : SignedMessage}

theorem notBlob_signed : NotBlob (.signed message) := by simp [NotBlob]

theorem notBlob_intentAccepted {i : AgentIntent} : NotBlob (.intentAccepted i) := by simp [NotBlob]

theorem acceptedPolicies_eq_nil (h : ∀ op ∈ t, NotBlob op) :
    acceptedPolicies t = [] := by
  refine List.filterMap_eq_nil_iff.mpr fun op hop => ?_
  cases op with
  | blobAccepted customerId venue policy secret => exact absurd rfl (h _ hop _ _ _ _)
  | _ => rfl

theorem acceptedPolicies_append (t t' : List Event) :
    acceptedPolicies (t ++ t') = acceptedPolicies t ++ acceptedPolicies t' :=
  List.filterMap_append

/-! ### The steps of a handler once a policy is in force -/

theorem under_underPolicy_bind {x : Except ErrCode α} {f : α → Handler β}
    (hf : ∀ a, Under hash A (f a)) : Under hash A (underPolicy hash x >>= f) := by
  refine ends_bind (ends_ofExcept ?_ fun _ _ => trivial) fun a _ => hf a
  intro resp hresp
  cases x with
  | error code =>
    obtain rfl := Except.error.inj hresp
    rfl
  | ok a => cases hresp

theorem under_completeSecret_bind {secret : Option α} {isComplete : α → Bool} {f : α → Handler β}
    (hf : ∀ a, Under hash A (f a)) : Under hash A (completeSecret secret isComplete hash >>= f) :=
  ends_ofOption_bind denyUnder_policyHash hf

theorem under_ownKey_bind {privateKey address : String} {f : Bytes × Bytes → Handler β}
    (hf : ∀ key, Under hash A (f key)) :
    Under hash A (ownKey env privateKey address hash >>= f) := by
  refine ends_bind (A := fun _ => True) ?_ fun key _ => hf key
  exact ends_ofOption_bind denyUnder_policyHash fun _ =>
    ends_ofOption_bind denyUnder_policyHash fun _ =>
    ends_ofOption_bind denyUnder_policyHash fun _ =>
    ends_ensure_bind denyUnder_policyHash (ends_pure trivial)

theorem answersUnder_releaseHeaders {h : HmacHeaders} : AnswersUnder hash (releaseHeaders h hash) :=
  ends_bind (ends_perform notBlob_signed) fun _ _ => ends_pure rfl

theorem answersUnder_releaseCanonical {h : HmacHeaders} {canonical : String} :
    AnswersUnder hash (releaseCanonical h canonical hash) :=
  ends_bind answersUnder_releaseHeaders fun _ hresp => ends_pure hresp

theorem answersUnder_releaseSignature :
    AnswersUnder hash (releaseSignature message (resp.withPolicyHash hash)) :=
  ends_bind (ends_perform notBlob_signed) fun _ _ => ends_pure rfl

theorem answersUnder_releaseOkx {blob : Opened} {path : String} {canonical : Option String} :
    AnswersUnder blob.policyHash
    (releaseOkx env blob ts path canonical) :=
  ends_ofOption_bind denyUnder_policyHash fun _ =>
    under_completeSecret_bind fun _ =>
    ends_ofOption_bind denyUnder_policyHash fun _ => answersUnder_releaseCanonical

theorem verifyAgentIntent_performs {pubkey : String} {signature : Option String} {message : Bytes} :
    (verifyAgentIntent env pubkey signature message).Performs NotBlob :=
  performs_bind (performs_ofOption _ _) fun _ =>
    performs_bind (performs_ensure _ _) fun _ =>
    performs_bind (performs_ofOption _ _) fun _ =>
    performs_bind (performs_ofOption _ _) fun _ =>
    performs_bind (performs_ensure _ _) fun _ =>
    performs_bind (performs_update _) fun _ =>
    performs_bind (performs_ensure _ _) fun _ =>
    performs_perform notBlob_intentAccepted

variable {f : Unit → Handler β}

theorem under_intentOrder_bind {venue : String} {action : Action} {order : OrderRequest}
    (hf : Under hash A (f ())) :
    Under hash A ((enforceAgentIntentOrder env policy identity venue action ts order req).mapError
      (·.withPolicyHash hash) >>= f) := by
  refine ends_bind (ends_mapError ?_ fun _ => rfl) fun _ _ => hf
  unfold enforceAgentIntentOrder
  split
  · exact performs_pure _
  · exact performs_bind (performs_ofOption _ _) fun _ => verifyAgentIntent_performs

theorem under_intentCancel_bind {venue : String} {action : Action} {cancel : CancelRequest}
    (hf : Under hash A (f ())) :
    Under hash A ((enforceAgentIntentCancel env policy identity venue action ts cancel req).mapError
      (·.withPolicyHash hash) >>= f) := by
  refine ends_bind (ends_mapError ?_ fun _ => rfl) fun _ _ => hf
  unfold enforceAgentIntentCancel
  split
  · exact performs_pure _
  · exact performs_bind (performs_ofOption _ _) fun _ => verifyAgentIntent_performs

end

/-! ### Loading the policy -/

def NamesPolicy (env : Env) (served : Served) : Prop :=
  (∀ p, some p ∈ acceptedPolicies served.trace →
    served.response.policyHash = computePolicyHash env p) ∧
  ((∀ p, some p ∉ acceptedPolicies served.trace) → served.response.policyHash = none)

section

variable {env : Env} {amb : Ambient} {req : SignRequest} {identity : ResolvedIdentity}
  {s : Enclave} {α : Type}

theorem namesPolicy_of_eq {served : Served} (hpolicy : acceptedPolicies served.trace = [policy])
    (hhash : served.response.policyHash = policy.bind (computePolicyHash env)) :
    NamesPolicy env served := by
  refine ⟨fun p hp => ?_, fun hnone => ?_⟩
  · rw [hpolicy, List.mem_singleton] at hp
    rw [hhash, ← hp, Option.bind_some]
  · rw [hpolicy] at hnone
    cases policy with
    | none => exact hhash
    | some p => exact absurd (List.mem_singleton_self _) (hnone p)

theorem namesPolicy_of_nil {served : Served} (hpolicy : acceptedPolicies served.trace = [])
    (hhash : served.response.policyHash = none) : NamesPolicy env served := by
  refine ⟨fun p hp => ?_, fun _ => hhash⟩
  rw [hpolicy] at hp
  cases hp

theorem loadAndParseBlob_run (env : Env) (amb : Ambient) (req : SignRequest)
    (identity : ResolvedIdentity) (s : Enclave) :
    (∃ e s', (loadAndParseBlob env amb req identity).run s = ⟨.error e, s', []⟩) ∨
      ∃ loaded s' t, (loadAndParseBlob env amb req identity).run s = ⟨.ok loaded, s', t⟩ ∧
        acceptedPolicies t = [loaded.1] := by
  unfold loadAndParseBlob
  rcases (silent_ofOption (venueForAction req.action) _).run_bind with h | ⟨venue, s₁, -, h⟩
  · exact .inl h
  rw [h]
  rcases (silent_ensure (identity.venueAllowed venue = true) _).run_bind with h | ⟨_, s₂, -, h⟩
  · exact .inl h
  rw [h]
  rcases loadSecretFor_silent.run_bind with h | ⟨plaintext, s₃, -, h⟩
  · exact .inl h
  rw [h]
  rcases (silent_ofOption (parseBlob env plaintext) _).run_bind with h | ⟨parsed, s₄, -, h⟩
  · exact .inl h
  rw [h]
  rcases (silent_update _).run_bind with h | ⟨_, s₅, -, h⟩
  · exact .inl h
  rw [h]
  exact .inr ⟨_, _, _, rfl, rfl⟩

theorem enforcePolicy_error (h : enforcePolicy env policy req = .error resp) :
    resp.policyHash = policy.bind (computePolicyHash env) := by
  unfold enforcePolicy at h
  split at h
  · cases h
  · obtain rfl := Except.error.inj h
    rfl

theorem enforcePolicy_hash {hash : Option String} (h : enforcePolicy env policy req = .ok hash) :
    hash = policy.bind (computePolicyHash env) := by
  cases policy with
  | none => exact enforcePolicy_none.mp h
  | some p => exact (enforcePolicy_some_ok_iff.mp h).2.2.symm

theorem openBlob_run (env : Env) (amb : Ambient) (req : SignRequest)
    (identity : ResolvedIdentity) (s : Enclave) :
    (∃ resp s', (openBlob env amb req identity).run s = ⟨.error resp, s', []⟩ ∧
      resp.policyHash = none) ∨
    ∃ policy s' t, acceptedPolicies t = [policy] ∧
      ((∃ resp, (openBlob env amb req identity).run s = ⟨.error resp, s', t⟩ ∧
        resp.policyHash = policy.bind (computePolicyHash env)) ∨
      ∃ blob, (openBlob env amb req identity).run s = ⟨.ok blob, s', t⟩ ∧
        blob.policyHash = policy.bind (computePolicyHash env)) := by
  rcases loadAndParseBlob_run env amb req identity s with ⟨e, s', h⟩ | ⟨loaded, s', t, h, ht⟩
  · refine .inl ⟨e.response, s', ?_, by cases e <;> rfl⟩
    simp only [openBlob, Bind.bind, Proc.bind, Proc.mapError, h]
  · refine .inr ⟨loaded.1, s', t, ht, ?_⟩
    cases henforce : enforcePolicy env loaded.1 req with
    | error resp =>
      refine .inl ⟨resp, ?_, enforcePolicy_error henforce⟩
      simp only [openBlob, Bind.bind, Proc.bind, Proc.mapError, h, henforce, Proc.ofExcept,
        List.append_nil]
    | ok hash =>
      refine .inr ⟨⟨loaded.1, loaded.2, hash⟩, ?_, enforcePolicy_hash henforce⟩
      simp [openBlob, Bind.bind, Proc.bind, Proc.mapError, h, henforce, Proc.ofExcept, Pure.pure]

/-! ### Handlers that name the policy -/

variable {f : α → Handler SignResponse} {p : Handler α}

theorem serve_bind_error {s' : Enclave}
    (h : p.run s = ⟨.error resp, s', t⟩) :
    (serve (p >>= f) s).1 = ⟨resp, false, t⟩ := by
  simp only [serve, Bind.bind, Proc.bind, h]

theorem serve_bind_ok {a : α} {s' : Enclave}
    (h : p.run s = ⟨.ok a, s', t⟩) :
    (serve (p >>= f) s).1.response = (serve (f a) s').1.response ∧
      (serve (p >>= f) s).1.trace = t ++ (serve (f a) s').1.trace := by
  simp only [serve, Bind.bind, Proc.bind, h]
  rcases (f a).run s' with ⟨resp | resp, s'', t'⟩ <;> exact ⟨rfl, rfl⟩

theorem AnswersUnder.serve {hash : Option String} {h : Handler SignResponse}
    (hh : AnswersUnder hash h) :
    acceptedPolicies (serve h s).1.trace = [] ∧ (serve h s).1.response.policyHash = hash := by
  have hquiet : acceptedPolicies (h.run s).trace = [] := acceptedPolicies_eq_nil (hh.performs s)
  have hrefused := hh.refused s
  have hreturned := hh.returned s
  unfold Signer.serve
  rcases hrun : h.run s with ⟨resp | resp, s', t⟩ <;> rw [hrun] at hquiet hrefused hreturned
  · exact ⟨hquiet, hrefused resp rfl⟩
  · exact ⟨hquiet, hreturned resp rfl⟩

def Names (env : Env) (h : Handler SignResponse) : Prop := ∀ s, NamesPolicy env (serve h s).1

theorem names_bind
    (hp : Under none (fun _ => True) p) (hf : ∀ a, Names env (f a)) : Names env (p >>= f) := by
  intro s
  have hquiet : acceptedPolicies (p.run s).trace = [] := acceptedPolicies_eq_nil (hp.performs s)
  rcases h : p.run s with ⟨resp | a, s', t⟩ <;> rw [h] at hquiet
  · rw [serve_bind_error h]
    exact namesPolicy_of_nil hquiet (hp.refused s resp (by rw [h]))
  · obtain ⟨hresponse, htrace⟩ := serve_bind_ok (f := f) h
    have hpolicies : acceptedPolicies (serve (p >>= f) s).1.trace =
        acceptedPolicies (serve (f a) s').1.trace := by
      rw [htrace, acceptedPolicies_append, hquiet, List.nil_append]
    rw [NamesPolicy, hresponse, hpolicies]
    exact hf a s'

theorem names_ofOption_bind {o : Option α}
    (hf : ∀ a, Names env (f a)) : Names env (Proc.ofOption o (.err code) >>= f) :=
  names_bind (ends_ofOption rfl) hf

theorem names_ensure_bind {c : Prop} [Decidable c] {f : Unit → Handler SignResponse}
    (hf : Names env (f ())) :
    Names env (Proc.ensure c (.err code) >>= f) :=
  names_bind (ends_ensure rfl) fun _ => hf

theorem names_openBlob_bind {f : Opened → Handler SignResponse}
    (hf : ∀ blob, AnswersUnder blob.policyHash (f blob)) :
    Names env (openBlob env amb req identity >>= f) := by
  intro s
  rcases openBlob_run env amb req identity s with
    ⟨resp, s', h, hhash⟩ | ⟨policy, s', t, ht, ⟨resp, h, hhash⟩ | ⟨blob, h, hhash⟩⟩
  · rw [serve_bind_error h]
    exact namesPolicy_of_nil rfl hhash
  · rw [serve_bind_error h]
    exact namesPolicy_of_eq ht hhash
  · obtain ⟨hresponse, htrace⟩ := serve_bind_ok (f := f) h
    obtain ⟨hquiet, hanswer⟩ := (hf blob).serve (s := s')
    refine namesPolicy_of_eq ?_ (hresponse ▸ hanswer.trans hhash)
    rw [htrace, acceptedPolicies_append, ht, hquiet, List.append_nil]

theorem handleSignKucoin_names : Names env (handleSignKucoin env amb req identity) :=
  names_ofOption_bind fun _ => names_ofOption_bind fun _ => names_ofOption_bind fun _ =>
    names_ofOption_bind fun _ => names_ensure_bind <| names_openBlob_bind fun _ =>
    ends_ensure_bind denyUnder_policyHash <|
    under_completeSecret_bind fun _ => answersUnder_releaseHeaders

theorem handleSignBybit_names : Names env (handleSignBybit env amb req identity) :=
  names_ofOption_bind fun _ => names_ofOption_bind fun _ => names_ofOption_bind fun _ =>
    names_ensure_bind <| names_openBlob_bind fun _ =>
    ends_ensure_bind denyUnder_policyHash <|
    under_completeSecret_bind fun _ => answersUnder_releaseHeaders

theorem handleSignOkx_names : Names env (handleSignOkx env amb req identity) :=
  names_ofOption_bind fun _ => names_ofOption_bind fun _ => names_ofOption_bind fun _ =>
    names_ofOption_bind fun _ => names_ensure_bind <| names_openBlob_bind fun _ =>
    ends_ensure_bind denyUnder_policyHash <| under_completeSecret_bind fun _ =>
    ends_ofOption_bind denyUnder_policyHash fun _ => answersUnder_releaseHeaders

theorem handleSignOkxOrder_names : Names env (handleSignOkxOrder env amb req identity) :=
  names_ofOption_bind fun _ => names_ofOption_bind fun _ => names_openBlob_bind fun _ =>
    under_underPolicy_bind fun _ => under_intentOrder_bind answersUnder_releaseOkx

theorem handleSignOkxCancel_names : Names env (handleSignOkxCancel env amb req identity) :=
  names_ofOption_bind fun _ => names_ofOption_bind fun _ => names_openBlob_bind fun _ =>
    under_underPolicy_bind fun _ => under_intentCancel_bind answersUnder_releaseOkx

theorem handleSignBinance_names : Names env (handleSignBinance env amb req identity) :=
  names_ofOption_bind fun _ => names_ofOption_bind fun _ => names_ofOption_bind fun _ =>
    names_ensure_bind <| names_openBlob_bind fun _ =>
    ends_ensure_bind denyUnder_policyHash <|
    under_completeSecret_bind fun _ => answersUnder_releaseHeaders

theorem handleSignBinanceRequest_names :
    Names env (handleSignBinanceRequest env amb req identity) := by
  refine names_ofOption_bind fun op => names_ofOption_bind fun payload =>
    names_bind (ends_ofExcept ?_ fun _ _ => trivial) fun _ => names_ofOption_bind fun _ =>
    names_openBlob_bind fun _ => ends_ensure_bind denyUnder_policyHash <|
    under_completeSecret_bind fun _ => answersUnder_releaseHeaders
  intro resp hresp
  cases hallow : checkBinanceRequestAllow op payload <;> rw [hallow] at hresp
  · obtain rfl := Except.error.inj hresp
    rfl
  · cases hresp

theorem handleSignBinanceOrder_names : Names env (handleSignBinanceOrder env amb req identity) :=
  names_ofOption_bind fun _ => names_ofOption_bind fun _ => names_openBlob_bind fun _ =>
    under_underPolicy_bind fun _ => under_intentOrder_bind <|
    ends_ofOption_bind denyUnder_policyHash fun _ =>
    under_completeSecret_bind fun _ => answersUnder_releaseCanonical

theorem handleSignBinanceCancel_names : Names env (handleSignBinanceCancel env amb req identity) :=
  names_ofOption_bind fun _ => names_ofOption_bind fun _ => names_openBlob_bind fun _ =>
    under_underPolicy_bind fun _ => under_intentCancel_bind <|
    ends_ofOption_bind denyUnder_policyHash fun _ =>
    under_completeSecret_bind fun _ => answersUnder_releaseCanonical

theorem handleHyperliquid_names {validate : Json → Bool} {source : String} :
    Names env (handleHyperliquid validate source env amb req identity) := by
  refine names_ofOption_bind fun _ => names_ensure_bind ?_
  simp only [signHyperliquidAs, loadHyperliquidRequest, Proc.bind_bind, Proc.pure_bind_eq]
  refine names_ofOption_bind fun _ => names_ofOption_bind fun _ =>
    names_bind (ends_ofExcept ?_ fun _ _ => trivial) fun _ => names_openBlob_bind fun _ =>
    under_underPolicy_bind fun _ => under_completeSecret_bind fun _ => under_ownKey_bind fun _ =>
    ends_ofOption_bind denyUnder_policyHash fun _ => answersUnder_releaseSignature
  intro resp hresp
  unfold requestVault at hresp
  split at hresp
  · cases hresp
  · split at hresp
    · cases hresp
    · obtain rfl := Except.error.inj hresp
      rfl

theorem handleSignAsterdex_names : Names env (handleSignAsterdex env amb req identity) :=
  names_ofOption_bind fun _ => names_ofOption_bind fun _ =>
    names_ensure_bind <| names_ensure_bind <|
    names_ensure_bind <| names_openBlob_bind fun _ =>
    ends_ensure_bind denyUnder_policyHash <| ends_ensure_bind denyUnder_policyHash <|
    under_underPolicy_bind fun _ => under_completeSecret_bind fun _ => under_ownKey_bind fun _ =>
    ends_ensure_bind denyUnder_policyHash <|
    ends_ofOption_bind denyUnder_policyHash fun _ => answersUnder_releaseSignature

theorem handleSignX402Eip3009_names : Names env (handleSignX402Eip3009 env amb req identity) :=
  names_ofOption_bind fun _ => names_ensure_bind <| names_openBlob_bind fun _ =>
    ends_ofOption_bind denyUnder_policyHash fun _ =>
    under_underPolicy_bind fun _ => under_completeSecret_bind fun _ => under_ownKey_bind fun _ =>
    ends_ensure_bind denyUnder_policyHash <|
    ends_ofOption_bind denyUnder_policyHash fun _ => answersUnder_releaseSignature

theorem handleSignPermit2PermitSingle_names :
    Names env (handleSignPermit2PermitSingle env amb req identity) :=
  names_ofOption_bind fun _ => names_ofOption_bind fun _ => names_openBlob_bind fun _ =>
    ends_ofOption_bind denyUnder_policyHash fun _ =>
    under_underPolicy_bind fun _ => under_completeSecret_bind fun _ => under_ownKey_bind fun _ =>
    ends_ofOption_bind denyUnder_policyHash fun _ => answersUnder_releaseSignature

theorem refuse_names : Names env (Proc.refuse (.err code)) :=
  fun _ => namesPolicy_of_nil rfl rfl

theorem dispatch_names (haction : isReceiptedAction req.action = true) :
    Names env (dispatch env amb req identity) := by
  unfold dispatch
  split
  case h_2 => exact handleSignKucoin_names
  case h_3 => exact handleSignBinance_names
  case h_4 => exact handleSignBinanceRequest_names
  case h_5 => exact handleSignBybit_names
  case h_6 => exact handleSignOkx_names
  case h_7 | h_8 | h_9 | h_10 => exact handleHyperliquid_names
  case h_11 => exact handleSignAsterdex_names
  case h_12 h => exact absurd h (ne_signData_of_receipted haction)
  case h_13 => exact handleSignX402Eip3009_names
  case h_14 => exact handleSignPermit2PermitSingle_names
  case h_15 => exact handleSignBinanceOrder_names
  case h_16 => exact handleSignBinanceCancel_names
  case h_17 => exact handleSignOkxOrder_names
  case h_18 => exact handleSignOkxCancel_names
  case h_19 h => exact absurd haction (by rw [h]; decide)
  case h_20 h => exact absurd haction (by rw [h]; decide)
  all_goals exact refuse_names

theorem answer_names (haction : isReceiptedAction req.action = true) :
    NamesPolicy env (answer env amb req identity s).1 := by
  unfold answer
  split
  · exact namesPolicy_of_nil rfl rfl
  · exact dispatch_names haction s

theorem attachReceipt_names {pre : ReceiptPre} {served : Served × Enclave}
    (h : NamesPolicy env served.1) : NamesPolicy env (attachReceipt env pre served).1 := by
  have hhash : (attachReceipt env pre served).1.response.policyHash =
      served.1.response.policyHash := by
    simp only [attachReceipt, ReceiptStore.attach]
    split <;> rfl
  rw [NamesPolicy, hhash]
  exact h

end

/-- A hash is present exactly if a policy decided. Whatever a request on a receipted signing
action comes to, its response carries the hash of the policy that was loaded for it, and no
hash if none was. -/
theorem policy_hash_names_policy (env : Env) (amb : Ambient) (req : SignRequest) (s : Enclave)
    (haction : isReceiptedAction req.action = true) :
    (∀ p, some p ∈ acceptedPolicies (handle env amb req s).1.trace →
      (handle env amb req s).1.response.policyHash = computePolicyHash env p) ∧
    ((∀ p, some p ∉ acceptedPolicies (handle env amb req s).1.trace) →
      (handle env amb req s).1.response.policyHash = none) := by
  change NamesPolicy env (handle env amb req s).1
  have hrefused : ∀ code, NamesPolicy env (.refused code) := fun _ => namesPolicy_of_nil rfl rfl
  simp only [handle, bypassHandler_of_receipted haction]
  split
  case isTrue => exact hrefused _
  split
  case isTrue => exact hrefused _
  cases resolveIdentity env req s with
  | none => exact hrefused _
  | some identity => exact attachReceipt_names (answer_names haction)

open Sample in
/-- The order of the sample agent is answered under the hash of its capped policy. -/
theorem policy_hash_names_policy_capped :
    (handle (env cappedBlob) {} limitOrder (enclave ["binance"] .active)).1.response.policyHash =
      computePolicyHash (env cappedBlob) cappedPolicy :=
  (policy_hash_names_policy (env cappedBlob) {} limitOrder (enclave ["binance"] .active)
    (by decide)).1 cappedPolicy (by decide +kernel)

end Signer
