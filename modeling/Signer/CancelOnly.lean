import Signer.CanonicalText
import Signer.Sample
import Signer.Signing

/-!
# What cancel-only mode binds

In cancel-only mode the gate lets the generic routes through on `GET` and `DELETE` and refuses
`POST` and `PUT`. Whether that restrains anything depends on the signed bytes. KuCoin and OKX sign
the method. Binance, Bybit and Asterdex do not, and there the same signature is one of a `POST`
unless the policy itself keeps such requests out.
-/

namespace Signer

open Text

variable {m m' : String} {p : Policy}

def refusedMethods : List String := ["POST", "PUT"]

def genericActions : List Action :=
  [.signKucoin, .signBinance, .signBybit, .signOkx, .signAsterdex]

/-- The same bytes are signed for a request with a method that cancel-only mode refuses. -/
def AlsoSigned (env : Env) (identity : ResolvedIdentity) (action : Action)
    (policy : Option Policy) (key : Bytes) (text : String) : Prop :=
  ∃ amb req s resp s' t, req.action = action ∧ (∃ m ∈ refusedMethods, req.method = some m) ∧
    (dispatch env amb req { identity with mode := .active }).Returns s resp s' t ∧
    policy ∈ acceptedPolicies t ∧ (key, text) ∈ venueMessages t

/-- The signed bytes hold the method, or the policy keeps refused methods out. -/
def MethodBound (action : Action) (policy : Option Policy) : Prop :=
  action = .signKucoin ∨ action = .signOkx ∨
    ∃ p, policy = some p ∧ ((action = .signBinance ∧ p.orderCaps.isSome = true) ∨
      ∀ m ∈ refusedMethods, p.allowsMethod m = false)

section

variable {env : Env} {amb : Ambient} {req : SignRequest} {identity : ResolvedIdentity}
  {s s' : Enclave} {resp : SignResponse} {t : List Event} {policy : Option Policy} {key : Bytes}
  {text : String}

theorem cancelOnly_method (hmode : identity.mode = .cancelOnly)
    (haction : req.action ∈ genericActions) (hgate : tenantModeGate identity req = .ok ())
    (hm : req.method = some m) (hallowed : m ∈ allowedMethods) : m = "GET" ∨ m = "DELETE" := by
  have hallows : cancelOnlyAllows req = true := by
    by_contra h
    simp [tenantModeGate, hmode, h] at hgate
  have hverbs : ∀ m ∈ allowedMethods, toAsciiUppercase (trim m) = m := by decide
  have hnames : ∀ a ∈ genericActions, endsWith a.name "_cancel" = false := by decide
  have hname := hnames _ haction
  simp only [genericActions, List.mem_cons, List.not_mem_nil, or_false] at haction
  rcases haction with h | h | h | h | h <;> rw [h] at hname <;>
    simpa [cancelOnlyAllows, h, hm, hverbs m hallowed, hname] using hallows

theorem mem_allowedMethods_of_refused (h : m ∈ refusedMethods) :
    m ∈ allowedMethods := by
  revert m
  decide

theorem allowsMethod_of_generic (haction : req.action ∈ genericActions)
    (hrun : (dispatch env amb req identity).Returns s resp s' t) (hm : req.method = some m)
    (hpolicy : some p ∈ acceptedPolicies t) (hsigned : (key, text) ∈ venueMessages t) :
    p.allowsMethod m = true := by
  obtain ⟨message, hmessage⟩ := exists_signed_of_mem_venueMessages hsigned
  obtain ⟨sent, ⟨-, rfl⟩ | ⟨hrequest, -⟩, hpass⟩ := rulesPass_of_signed hrun hmessage hpolicy
  · exact hpass.method_allowed m hm
  · rw [hrequest] at haction
    exact absurd haction (by decide)

/-! ### Routes whose signature holds for another method -/

theorem dispatch_signBinance (h : req.action = .signBinance) :
    dispatch env amb req identity = handleSignBinance env amb req identity := by
  simp only [dispatch, h]

theorem dispatch_signBybit (h : req.action = .signBybit) :
    dispatch env amb req identity = handleSignBybit env amb req identity := by
  simp only [dispatch, h]

theorem dispatch_signAsterdex (h : req.action = .signAsterdex) :
    dispatch env amb req identity = handleSignAsterdex env amb req identity := by
  simp only [dispatch, h]

theorem alsoSigned_of_resend (body : Option String) {h : Handler SignResponse}
    (hm : m ∈ refusedMethods)
    (hroute : dispatch env amb (req.resend m body) { identity with mode := .active } = h)
    (hrun : h.Returns s resp s' t) (hpolicy : policy ∈ acceptedPolicies t)
    (hsigned : (key, text) ∈ venueMessages t) :
    AlsoSigned env identity req.action policy key text :=
  ⟨amb, req.resend m body, s, resp, s', t, rfl, ⟨m, hm, rfl⟩, hroute ▸ hrun, hpolicy, hsigned⟩

theorem alsoSigned_binance (haction : req.action = .signBinance)
    (hrun : (handleSignBinance env amb req identity).Returns s resp s' t)
    (hpolicy : policy ∈ acceptedPolicies t) (hsigned : (key, text) ∈ venueMessages t)
    (hcaps : (policy.bind Policy.orderCaps).isSome = false) (hm : m ∈ refusedMethods)
    (hallows : ∀ p, policy = some p → p.allowsMethod m = true) :
    AlsoSigned env identity .signBinance policy key text := by
  obtain ⟨_, body, ts, blob, venue, pair, -, hbody, hts, -, hopens, -, hpair, hcomplete, rfl⟩ :=
    handleSignBinance_signs.mp ⟨resp, hrun⟩
  obtain rfl : policy = blob.policy := by simpa using hpolicy
  have hresent := hopens.resend m req.body .active hallows
  obtain ⟨resp', hrun'⟩ : ∃ resp', (handleSignBinance env amb (req.resend m req.body)
      { identity with mode := .active }).Returns s resp' s' _ :=
    handleSignBinance_signs.mpr ⟨m, body, ts, blob, venue, pair, rfl, hbody, hts,
      mem_allowedMethods_of_refused hm, hresent, fun h => absurd h (by simp [hcaps]), hpair,
      hcomplete, rfl⟩
  rw [← haction]
  exact alsoSigned_of_resend req.body hm (dispatch_signBinance haction) hrun' hpolicy hsigned

theorem alsoSigned_bybit (haction : req.action = .signBybit)
    (hrun : (handleSignBybit env amb req identity).Returns s resp s' t)
    (hread : req.method = some m') (hmethod : m' = "GET" ∨ m' = "DELETE")
    (hpolicy : policy ∈ acceptedPolicies t) (hsigned : (key, text) ∈ venueMessages t)
    (hm : m ∈ refusedMethods) (hallows : ∀ p, policy = some p → p.allowsMethod m = true) :
    AlsoSigned env identity .signBybit policy key text := by
  obtain ⟨method, body, ts, blob, venue, pair, hmethod', -, hts, -, hopens, hcaps, hpair, hcomplete,
    rfl⟩ := handleSignBybit_signs.mp ⟨resp, hrun⟩
  obtain rfl : policy = blob.policy := by simpa using hpolicy
  obtain rfl : method = m' := Option.mem_unique hmethod' hread
  have hquery : ∀ q b, bybitPayload method q b = q := by
    rcases hmethod with rfl | rfl <;> intro q b <;> rfl
  have hbody : ∀ q b, bybitPayload m q b = b := by
    simp only [refusedMethods, List.mem_cons, List.not_mem_nil, or_false] at hm
    rcases hm with rfl | rfl <;> intro q b <;> rfl
  -- The other request moves the query into its body.
  have hresent := hopens.resend m (some (req.query.getD "")) .active hallows
  obtain ⟨resp', hrun'⟩ : ∃ resp',
    (handleSignBybit env amb (req.resend m (some (req.query.getD "")))
      { identity with mode := .active }).Returns s resp' s' _ :=
    handleSignBybit_signs.mpr ⟨m, req.query.getD "", ts, blob, venue, pair, rfl, rfl, hts,
      mem_allowedMethods_of_refused hm, hresent, hcaps, hpair, hcomplete, rfl⟩
  rw [← haction]
  refine alsoSigned_of_resend (some (req.query.getD "")) hm (dispatch_signBybit haction) hrun' ?_ ?_
  · simp
  · simpa [hquery, hbody] using hsigned

theorem alsoSigned_asterdex (haction : req.action = .signAsterdex)
    (hrun : (handleSignAsterdex env amb req identity).Returns s resp s' t)
    (hpolicy : policy ∈ acceptedPolicies t) (hsigned : (key, text) ∈ venueMessages t)
    (hm : m ∈ refusedMethods) (hallows : ∀ p, policy = some p → p.allowsMethod m = true) :
    AlsoSigned env identity .signAsterdex policy key text := by
  obtain ⟨_, body, blob, venue, secret, own, signature, -, hbody, -, hne, hlen, hopens, hfloor,
    hendpoint, hcap, hsecret, hcomplete, hown, hvalid, hsignature, rfl⟩ :=
    handleSignAsterdex_signs.mp ⟨resp, hrun⟩
  obtain rfl : policy = blob.policy := by simpa using hpolicy
  have hresent := hopens.resend m req.body .active hallows
  obtain ⟨resp', hrun'⟩ : ∃ resp', (handleSignAsterdex env amb (req.resend m req.body)
      { identity with mode := .active }).Returns s resp' s' _ :=
    handleSignAsterdex_signs.mpr ⟨m, body, blob, venue, secret, own, signature, rfl, hbody,
      mem_allowedMethods_of_refused hm, hne, hlen, hresent, hfloor, hendpoint, hcap, hsecret,
      hcomplete, hown, hvalid, hsignature, rfl⟩
  rw [← haction]
  exact alsoSigned_of_resend req.body hm (dispatch_signAsterdex haction) hrun' hpolicy hsigned

/-! ### Routes that sign or check the method -/

theorem binanceCapped_method {method path query body : String}
    (h : genericCappedOpAllowed "binance" method path query body = true) :
    method ∉ refusedMethods := by
  have hop : binanceCappedOpAllowed method (splitQuery path query).1 (splitQuery path query).2 =
      true := by
    unfold genericCappedOpAllowed at h
    split at h
    · cases h
    · split at h
      · cases h
      · exact h
  unfold binanceCappedOpAllowed at hop
  split at hop <;> first | decide | exact absurd hop Bool.false_ne_true

theorem not_alsoSigned_kucoin (hrun : (handleSignKucoin env amb req identity).Returns s resp s' t)
    (hread : req.method = some m') (hm' : m' ∉ refusedMethods)
    (hsigned : (key, text) ∈ venueMessages t) :
    ¬ AlsoSigned env identity .signKucoin policy key text := by
  rintro ⟨amb', req', s₁, resp', s₁', t', haction, ⟨m, hm, hmethod⟩, hrun', -, hsigned'⟩
  simp only [dispatch, haction] at hrun'
  obtain ⟨_, path, body, ts, blob, venue, triple, h, -, -, -, hallowed, -, -, -, -, rfl⟩ :=
    handleSignKucoin_signs.mp ⟨resp, hrun⟩
  obtain ⟨_, path', body', ts', blob', venue', triple', h', -, -, -, hallowed', -, -, -, -, rfl⟩ :=
    handleSignKucoin_signs.mp ⟨resp', hrun'⟩
  obtain rfl := Option.mem_unique h hread
  obtain rfl := Option.mem_unique h' hmethod
  simp only [venueMessages_signTrace_hmac, List.mem_singleton, Prod.mk.injEq] at hsigned hsigned'
  obtain ⟨-, rfl, -⟩ := kucoinCanonical_inj hallowed hallowed' (hsigned.2.symm.trans hsigned'.2)
  exact hm' hm

theorem not_alsoSigned_okx (hrun : (handleSignOkx env amb req identity).Returns s resp s' t)
    (hread : req.method = some m') (hm' : m' ∉ refusedMethods)
    (hsigned : (key, text) ∈ venueMessages t) :
    ¬ AlsoSigned env identity .signOkx policy key text := by
  rintro ⟨amb', req', s₁, resp', s₁', t', haction, ⟨m, hm, hmethod⟩, hrun', -, hsigned'⟩
  simp only [dispatch, haction] at hrun'
  obtain ⟨_, path, body, ts, blob, venue, triple, h, -, -, -, hallowed, -, -, -, rfl⟩ :=
    handleSignOkx_signs hrun
  obtain ⟨_, path', body', ts', blob', venue', triple', h', -, -, -, hallowed', -, -, -, rfl⟩ :=
    handleSignOkx_signs hrun'
  obtain rfl := Option.mem_unique h hread
  obtain rfl := Option.mem_unique h' hmethod
  simp only [venueMessages_signTrace_hmac, List.mem_singleton, Prod.mk.injEq] at hsigned hsigned'
  obtain ⟨-, rfl, -⟩ := okxCanonical_inj hallowed hallowed' (hsigned.2.symm.trans hsigned'.2)
  exact hm' hm

theorem not_alsoSigned_binance (hcaps : p.orderCaps.isSome = true) :
    ¬ AlsoSigned env identity .signBinance (some p) key text := by
  rintro ⟨amb', req', s₁, resp', s₁', t', haction, ⟨m, hm, hmethod⟩, hrun', hpolicy', -⟩
  rw [dispatch_signBinance haction] at hrun'
  obtain ⟨_, body, ts, blob, venue, pair, h, -, -, -, -, hgate, -, -, rfl⟩ :=
    handleSignBinance_signs.mp ⟨resp', hrun'⟩
  obtain rfl := Option.mem_unique h hmethod
  have hblob : some p = blob.policy := by simpa using hpolicy'
  exact binanceCapped_method (hgate (by simpa [← hblob] using hcaps)) hm

theorem not_alsoSigned_of_methods {action : Action} (haction : action ∈ genericActions)
    (hmethods : ∀ m ∈ refusedMethods, p.allowsMethod m = false) :
    ¬ AlsoSigned env identity action (some p) key text := by
  rintro ⟨amb', req', s₁, resp', s₁', t', rfl, ⟨m, hm, hmethod⟩, hrun', hpolicy', hsigned'⟩
  have hallows := allowsMethod_of_generic haction hrun' hmethod hpolicy' hsigned'
  rw [hmethods m hm] at hallows
  exact Bool.false_ne_true hallows

/-- What a generic route signs in cancel-only mode is also signed for a refused method in
active mode, except where the message or the policy binds the method. -/
theorem cancelOnly_signature_bound (hmode : identity.mode = .cancelOnly)
    (haction : req.action ∈ genericActions) (hgate : tenantModeGate identity req = .ok ())
    (hrun : (dispatch env amb req identity).Returns s resp s' t)
    (hpolicy : policy ∈ acceptedPolicies t) (hsigned : (key, text) ∈ venueMessages t) :
    ¬ AlsoSigned env identity req.action policy key text ↔ MethodBound req.action policy := by
  have hread : ∀ m, req.method = some m → m ∈ allowedMethods → m = "GET" ∨ m = "DELETE" :=
    fun m hm hallowed => cancelOnly_method hmode haction hgate hm hallowed
  have hnotRefused : ∀ m, m = "GET" ∨ m = "DELETE" → m ∉ refusedMethods := by
    rintro m (rfl | rfl) <;> decide
  -- Unless the policy rules them out, one of the refused methods is allowed.
  have hallowed : ¬ MethodBound req.action policy →
      ∃ m ∈ refusedMethods, ∀ p, policy = some p → p.allowsMethod m = true := by
    intro hbound
    cases policy with
    | none => exact ⟨"POST", by decide, by simp⟩
    | some p =>
      by_contra h
      refine hbound (.inr (.inr ⟨p, rfl, .inr fun m hm => ?_⟩))
      by_contra hm'
      exact h ⟨m, hm, by rintro _ ⟨⟩; simpa using hm'⟩
  constructor
  · intro hnot
    by_contra hbound
    obtain ⟨m, hm, hallows⟩ := hallowed hbound
    refine hnot ?_
    have hgeneric := haction
    simp only [genericActions, List.mem_cons, List.not_mem_nil, or_false] at hgeneric
    rcases hgeneric with h | h | h | h | h
    · exact absurd (.inl h) hbound
    · rw [dispatch_signBinance h] at hrun
      have hcaps : (policy.bind Policy.orderCaps).isSome = false := by
        by_contra hcaps
        obtain ⟨caps, hcaps⟩ := Option.isSome_iff_exists.mp (Bool.not_eq_false _ ▸ hcaps)
        obtain ⟨p, hp, hcaps⟩ := Option.bind_eq_some_iff.mp hcaps
        exact hbound (.inr (.inr ⟨p, hp, .inl ⟨h, by simp [hcaps]⟩⟩))
      rw [h]
      exact alsoSigned_binance h hrun hpolicy hsigned hcaps hm hallows
    · rw [dispatch_signBybit h] at hrun
      obtain ⟨m', _, _, _, _, _, hm', -, -, hverb, -⟩ := handleSignBybit_signs.mp ⟨resp, hrun⟩
      rw [h]
      exact alsoSigned_bybit h hrun hm' (hread m' hm' hverb) hpolicy hsigned hm hallows
    · exact absurd (.inr (.inl h)) hbound
    · rw [dispatch_signAsterdex h] at hrun
      rw [h]
      exact alsoSigned_asterdex h hrun hpolicy hsigned hm hallows
  · rintro (h | h | ⟨p, rfl, ⟨h, hcaps⟩ | hmethods⟩)
    · simp only [dispatch, h] at hrun
      obtain ⟨m', _, _, _, _, _, _, hm', -, -, -, hverb, -⟩ :=
        handleSignKucoin_signs.mp ⟨resp, hrun⟩
      rw [h]
      exact not_alsoSigned_kucoin hrun hm' (hnotRefused m' (hread m' hm' hverb)) hsigned
    · simp only [dispatch, h] at hrun
      obtain ⟨m', _, _, _, _, _, _, hm', -, -, -, hverb, -⟩ := handleSignOkx_signs hrun
      rw [h]
      exact not_alsoSigned_okx hrun hm' (hnotRefused m' (hread m' hm' hverb)) hsigned
    · rw [h]
      exact not_alsoSigned_binance hcaps
    · exact not_alsoSigned_of_methods haction hmethods

end

namespace Sample

def marketDelete : SignRequest :=
  { request .signBinance with
    method := some "DELETE", path := some "/api/v3/order", body := some "",
    query := some "symbol=BTCUSDT&side=BUY&type=MARKET&quantity=1" }

def marketText : String :=
  "symbol=BTCUSDT&side=BUY&type=MARKET&quantity=1&timestamp=1700000000000&recvWindow=5000"

def stopped : ResolvedIdentity := identity ["binance"] .cancelOnly

theorem marketDelete_signed :
    ∃ resp s' t, (dispatch (env bareBlob) {} marketDelete stopped).Returns {} resp s' t ∧
      none ∈ acceptedPolicies t ∧ (bytes "sample-secret", marketText) ∈ venueMessages t :=
  Proc.exists_returns_of_run (by decide +kernel)

end Sample

open Sample in
/-- The string of a market order that a stopped tenant gets signed is the string of a
`POST`. -/
theorem cancelOnly_signature_unbound :
    tenantModeGate stopped marketDelete = .ok () ∧
      (∃ resp s' t, (dispatch (env bareBlob) {} marketDelete stopped).Returns {} resp s' t ∧
        none ∈ acceptedPolicies t ∧ (bytes "sample-secret", marketText) ∈ venueMessages t) ∧
      AlsoSigned (env bareBlob) stopped .signBinance none (bytes "sample-secret")
        marketText := by
  refine ⟨by decide +kernel, marketDelete_signed, ?_⟩
  obtain ⟨resp, s', t, hrun, hpolicy, hmessage⟩ : ∃ resp s' t, (dispatch (env bareBlob) {}
      (marketDelete.resend "POST" (some ""))
        { stopped with mode := .active }).Returns {} resp s' t ∧
      none ∈ acceptedPolicies t ∧ (bytes "sample-secret", marketText) ∈ venueMessages t :=
    Proc.exists_returns_of_run (by decide +kernel)
  exact ⟨{}, _, {}, resp, s', t, rfl, ⟨"POST", by decide, rfl⟩, hrun, hpolicy, hmessage⟩

open Sample in
/-- The criterion at the sample request, which nothing binds. -/
theorem cancelOnly_signature_bound_marketDelete :
    ¬ AlsoSigned (env bareBlob) stopped .signBinance none (bytes "sample-secret") marketText ↔
      MethodBound .signBinance none := by
  obtain ⟨resp, s', t, hrun, hpolicy, hmessage⟩ := marketDelete_signed
  exact cancelOnly_signature_bound rfl (by decide) (by decide +kernel) hrun hpolicy hmessage

end Signer
