import Signer.CanonicalText
import Signer.Sample
import Signer.Signing

/-!
# What the path and method rules bind

The rules of a policy are checked on the path and method fields of a request. On KuCoin and
OKX the signed string is path and body without a separator, so it can be read as a request
to any path that the two begin with. A rule on a field that the request leaves out is
skipped, and most routes do not need the fields.
-/

namespace Signer

open Text

/-! ### Other readings of a signed string -/

def pathCanonical (action : Action) (ts : UInt64) (m path body : String) : String :=
  if action = .signOkx then okxCanonical (okxIso8601FromMs ts) m path body
  else kucoinCanonical ts m path body

def signedPath (req : SignRequest) : String :=
  if req.action = .signOkx then okxRequestPath (req.path.getD "") req.query else req.path.getD ""

/-- However the signed text is read as a request, the path rules admit its path. -/
def PathBound (action : Action) (p : Policy) (text : String) : Prop :=
  ∀ ts m path body, m ∈ allowedMethods → pathCanonical action ts m path body = text →
    p.allowsPath path = true ∧ p.deniesPath path = false

section

variable {action : Action} {ts ts' : UInt64} {m m' path path' body body' : String} {p : Policy}

theorem pathCanonical_inj (hm : m ∈ allowedMethods) (hm' : m' ∈ allowedMethods)
    (h : pathCanonical action ts m path body = pathCanonical action ts' m' path' body') :
    m = m' ∧ path ++ body = path' ++ body' := by
  unfold pathCanonical at h
  split at h
  · exact (okxCanonical_inj hm hm' h).2
  · exact (kucoinCanonical_inj hm hm' h).2

theorem pathCanonical_congr (h : path ++ body = path' ++ body') :
    pathCanonical action ts m path body = pathCanonical action ts m path' body' := by
  simp only [pathCanonical, okxCanonical, kucoinCanonical, String.append_assoc, h]

theorem allowsPath_empty (h : p.allowsPath "" = true) : p.allowedPathPrefixes = none := by
  by_contra hsome
  obtain ⟨starts, hstarts⟩ := Option.ne_none_iff_exists'.mp hsome
  simp only [Policy.allowsPath, hstarts, Option.all_some, List.any_eq_true] at h
  obtain ⟨start, -, hmatch⟩ := h
  unfold pathMatchesPrefix at hmatch
  split at hmatch
  · cases hmatch
  rename_i hne
  simp [startsWith, hne] at hmatch

theorem deniesPath_append (h : p.deniesPath path = true) : p.deniesPath (path ++ body) = true := by
  unfold Policy.deniesPath at h ⊢
  obtain ⟨starts, hstarts⟩ : ∃ starts, p.deniedPathPrefixes = some starts :=
    Option.isSome_iff_exists.mp (Option.isSome_of_any h)
  simp only [hstarts, Option.any_some, List.any_eq_true, startsWith_iff,
    String.toList_append] at h ⊢
  obtain ⟨start, hmem, hprefix⟩ := h
  exact ⟨start, hmem, hprefix.trans (List.prefix_append _ _)⟩

theorem pathBound_iff (hm : m ∈ allowedMethods) :
    PathBound action p (pathCanonical action ts m path body) ↔
      p.allowedPathPrefixes = none ∧ p.deniesPath (path ++ body) = false := by
  constructor
  · intro h
    have hempty := h ts m "" (path ++ body) hm (pathCanonical_congr (by simp))
    have hwhole := h ts m (path ++ body) "" hm (pathCanonical_congr (by simp))
    exact ⟨allowsPath_empty hempty.1, hwhole.2⟩
  · rintro ⟨hallowed, hdenied⟩ ts' m' path' body' hm' hsame
    refine ⟨by simp [Policy.allowsPath, hallowed], ?_⟩
    rw [← (pathCanonical_inj hm' hm hsame).2] at hdenied
    by_contra hdenies
    rw [deniesPath_append (Bool.eq_true_of_not_eq_false hdenies)] at hdenied
    cases hdenied

end

/-- A signature that KuCoin or OKX requests are given under a policy is good for no request
whose path the policy refuses exactly if there is no allow list and the signed path with the
body after it is not denied. -/
theorem pathRules_bind_iff {env : Env} {amb : Ambient} {req : SignRequest}
    {identity : ResolvedIdentity} {s s' : Enclave} {resp : SignResponse} {t : List Event}
    {p : Policy}
    {text : String} (haction : req.action = .signKucoin ∨ req.action = .signOkx)
    (hrun : (dispatch env amb req identity).Returns s resp s' t)
    (hpolicy : some p ∈ acceptedPolicies t) (htext : text ∈ hmacTexts t) :
    PathBound req.action p text ↔
      p.allowedPathPrefixes = none ∧ p.deniesPath (signedPath req ++ req.body.getD "") = false := by
  have hsigned : ∃ ts m, m ∈ allowedMethods ∧
      text = pathCanonical req.action ts m (signedPath req) (req.body.getD "") := by
    rcases haction with haction | haction <;> simp only [dispatch, haction] at hrun
    · obtain ⟨m, path, body, ts, blob, venue, triple, -, hpath, hbody, -, hm, -, -, -, -, rfl⟩ :=
        handleSignKucoin_signs.mp ⟨resp, hrun⟩
      obtain ⟨secret, hmessage⟩ := mem_hmacTexts_signTrace.mp htext
      obtain ⟨-, rfl⟩ := SignedMessage.hmac.inj hmessage
      exact ⟨ts, m, hm, by simp [pathCanonical, signedPath, haction, hpath, hbody]⟩
    · obtain ⟨m, path, body, ts, blob, venue, triple, -, hpath, hbody, -, hm, -, -, -, rfl⟩ :=
        handleSignOkx_signs hrun
      obtain ⟨secret, hmessage⟩ := mem_hmacTexts_signTrace.mp htext
      obtain ⟨-, rfl⟩ := SignedMessage.hmac.inj hmessage
      exact ⟨ts, m, hm, by simp [pathCanonical, signedPath, haction, hpath, hbody]⟩
  obtain ⟨ts, m, hm, rfl⟩ := hsigned
  exact pathBound_iff hm

namespace Sample

def noWithdrawals : Policy where
  deniedPathPrefixes := some ["/api/v3/withdrawals"]

def kucoinBlob : Answers where
  plaintext := "\x7b\"policy\":\x7b\"denied_path_prefixes\":[\"/api/v3/withdrawals\"]\x7d," ++
    "\"secret\":\x7b\"key\":\"sample-key\",\"secret\":\"sample-secret\"," ++
    "\"passphrase\":\"sample-pass\"\x7d\x7d"
  parsed := .withPolicy noWithdrawals (.object [("key", .string "sample-key"),
    ("secret", .string "sample-secret"), ("passphrase", .string "sample-pass")])
  policyText := "\x7b\"denied_path_prefixes\":[\"/api/v3/withdrawals\"]\x7d"

def withdrawalBody : String :=
  "\x7b\"currency\":\"BTC\",\"amount\":\"1\",\"toAddress\":\"bc1q\"\x7d"

def splitWithdrawal : SignRequest :=
  { request .signKucoin with
    method := some "POST", path := some "/api/v3/with", body := some ("drawals" ++ withdrawalBody) }

def withdrawalText : String :=
  kucoinCanonical 1700000000000 "POST" "/api/v3/withdrawals" withdrawalBody

theorem splitWithdrawal_signed :
    ∃ resp s' t, (dispatch (env kucoinBlob) {} splitWithdrawal
      (identity ["kucoin"] .active)).Returns
      {} resp s' t ∧ some noWithdrawals ∈ acceptedPolicies t ∧ withdrawalText ∈ hmacTexts t :=
  Proc.exists_returns_of_run (by decide +kernel)

end Sample

open Sample in
/-- Under a policy that refuses withdrawals, the string of a withdrawal is signed. -/
theorem pathRules_unbound :
    (∃ resp s' t, (dispatch (env kucoinBlob) {} splitWithdrawal
      (identity ["kucoin"] .active)).Returns
        {} resp s' t ∧ some noWithdrawals ∈ acceptedPolicies t ∧ withdrawalText ∈ hmacTexts t) ∧
      ¬ PathBound .signKucoin noWithdrawals withdrawalText := by
  refine ⟨splitWithdrawal_signed, fun hbound => ?_⟩
  have hallowed := hbound 1700000000000 "POST" "/api/v3/withdrawals" withdrawalBody (by decide) rfl
  exact absurd hallowed.2 (by decide +kernel)

open Sample in
/-- The criterion at the sample request: a path that continues into the body is denied. -/
theorem pathRules_bind_iff_withdrawal :
    PathBound .signKucoin noWithdrawals withdrawalText ↔
      noWithdrawals.allowedPathPrefixes = none ∧
        noWithdrawals.deniesPath ("/api/v3/with" ++ ("drawals" ++ withdrawalBody)) = false := by
  obtain ⟨resp, s', t, hrun, hpolicy, htext⟩ := splitWithdrawal_signed
  exact pathRules_bind_iff (.inl rfl) hrun hpolicy htext

/-! ### Rules on absent fields -/

def hmacActions : List Action :=
  [.signKucoin, .signBinance, .signBinanceRequest, .signBybit, .signOkx, .signBinanceOrder,
    .signBinanceCancel, .signOkxOrder, .signOkxCancel]

def ruleMethod (req : SignRequest) : Option String :=
  if req.action = .signBinanceRequest then (req.op.bind binanceRequestMethodPath).map Prod.fst
  else req.method

def rulePath (req : SignRequest) : Option String :=
  if req.action = .signBinanceRequest then (req.op.bind binanceRequestMethodPath).map Prod.snd
  else req.path

/-- Every rule of the policy was evaluated on a field, and passed. -/
structure RulesEvaluated (p : Policy) (req : SignRequest) : Prop where
  method_allowed : p.allowedMethods.isSome = true →
    ∃ m, ruleMethod req = some m ∧ p.allowsMethod m = true
  path_allowed : p.allowedPathPrefixes.isSome = true →
    ∃ path, rulePath req = some path ∧ p.allowsPath path = true
  path_not_denied : p.deniedPathPrefixes.isSome = true →
    ∃ path, rulePath req = some path ∧ p.deniesPath path = false

def Policy.hasPathRule (p : Policy) : Bool :=
  p.allowedPathPrefixes.isSome || p.deniedPathPrefixes.isSome

/-- The request gives the fields that its route does not insist on. -/
def FieldsGiven (p : Policy) (req : SignRequest) : Prop :=
  match req.action with
  | .signKucoin | .signOkx | .signBinanceRequest => True
  | .signBinance | .signBybit => p.hasPathRule = true → req.path.isSome = true
  | _ => (p.allowedMethods.isSome = true → req.method.isSome = true) ∧
      (p.hasPathRule = true → req.path.isSome = true)

section

variable {env : Env} {amb : Ambient} {req sent : SignRequest} {identity : ResolvedIdentity}
  {s s' : Enclave} {resp : SignResponse} {t : List Event} {p : Policy}

theorem SentAs.fields_eq (h : SentAs req sent) :
    sent.method = ruleMethod req ∧ sent.path = rulePath req := by
  rcases h with ⟨hne, rfl⟩ | ⟨haction, op, route, hop, hroute, rfl⟩
  · simp [ruleMethod, rulePath, hne]
  · simp [ruleMethod, rulePath, haction, hop, hroute, stampRoute]

theorem rulesEvaluated_iff (hsent : SentAs req sent) (hpass : RulesPass p sent) :
    RulesEvaluated p req ↔
      (p.allowedMethods.isSome = true → (ruleMethod req).isSome = true) ∧
      (p.hasPathRule = true → (rulePath req).isSome = true) := by
  obtain ⟨hmethod, hpath⟩ := hsent.fields_eq
  constructor
  · intro h
    refine ⟨fun hset => ?_, fun hset => ?_⟩
    · obtain ⟨m, hm, -⟩ := h.method_allowed hset
      simp [hm]
    · rcases Bool.or_eq_true_iff.mp hset with hset | hset
      · obtain ⟨path, hread, -⟩ := h.path_allowed hset
        simp [hread]
      · obtain ⟨path, hread, -⟩ := h.path_not_denied hset
        simp [hread]
  · rintro ⟨hm, hp⟩
    refine ⟨fun hset => ?_, fun hset => ?_, fun hset => ?_⟩
    · obtain ⟨m, hread⟩ := Option.isSome_iff_exists.mp (hm hset)
      exact ⟨m, hread, hpass.method_allowed m (hmethod.trans hread)⟩
    · obtain ⟨path, hread⟩ := Option.isSome_iff_exists.mp (hp (by simp [Policy.hasPathRule, hset]))
      exact ⟨path, hread, hpass.path_allowed path (hpath.trans hread)⟩
    · obtain ⟨path, hread⟩ := Option.isSome_iff_exists.mp (hp (by simp [Policy.hasPathRule, hset]))
      exact ⟨path, hread, hpass.path_not_denied path (hpath.trans hread)⟩

theorem method_isSome_of_dispatch
    (haction : req.action ∈ [.signKucoin, .signOkx, .signBinance, .signBybit])
    (hrun : (dispatch env amb req identity).Returns s resp s' t) : req.method.isSome = true := by
  simp only [List.mem_cons, List.not_mem_nil, or_false] at haction
  rcases haction with haction | haction | haction | haction <;>
    simp only [dispatch, haction] at hrun
  · obtain ⟨m, _, _, _, _, _, _, hm, -⟩ := handleSignKucoin_signs.mp ⟨resp, hrun⟩
    simp [hm]
  · obtain ⟨m, _, _, _, _, _, _, hm, -⟩ := handleSignOkx_signs hrun
    simp [hm]
  · obtain ⟨m, _, _, _, _, _, hm, -⟩ := handleSignBinance_signs.mp ⟨resp, hrun⟩
    simp [hm]
  · obtain ⟨m, _, _, _, _, _, hm, -⟩ := handleSignBybit_signs.mp ⟨resp, hrun⟩
    simp [hm]

theorem path_isSome_of_dispatch (haction : req.action ∈ [.signKucoin, .signOkx])
    (hrun : (dispatch env amb req identity).Returns s resp s' t) : req.path.isSome = true := by
  simp only [List.mem_cons, List.not_mem_nil, or_false] at haction
  rcases haction with haction | haction <;> simp only [dispatch, haction] at hrun
  · obtain ⟨_, path, _, _, _, _, _, -, hpath, -⟩ := handleSignKucoin_signs.mp ⟨resp, hrun⟩
    simp [hpath]
  · obtain ⟨_, path, _, _, _, _, _, -, hpath, -⟩ := handleSignOkx_signs hrun
    simp [hpath]

/-- Under a policy with method or path rules, a request that an HMAC venue's key signs had every
rule evaluated exactly if it has the fields its route does without: the route of a named
operation is known, KuCoin and OKX need method and path, the generic Binance and Bybit routes
the method only, and the structured routes neither. -/
theorem rules_evaluated_iff_given {text : String} (haction : req.action ∈ hmacActions)
    (hrun : (dispatch env amb req identity).Returns s resp s' t)
    (hpolicy : some p ∈ acceptedPolicies t) (htext : text ∈ hmacTexts t) :
    RulesEvaluated p req ↔ FieldsGiven p req := by
  obtain ⟨secret, hsigned⟩ := mem_hmacTexts.mp htext
  obtain ⟨sent, hsent, hpass⟩ := rulesPass_of_signed hrun hsigned hpolicy
  rw [rulesEvaluated_iff hsent hpass]
  have hmethod := fun h => method_isSome_of_dispatch h hrun
  have hpath := fun h => path_isSome_of_dispatch h hrun
  simp only [hmacActions, List.mem_cons, List.not_mem_nil, or_false] at haction
  rcases haction with h | h | h | h | h | h | h | h | h <;>
    simp only [h, FieldsGiven, ruleMethod, rulePath, reduceCtorEq, if_false, if_true]
  · simp [hmethod (by simp [h]), hpath (by simp [h])]
  · simp [hmethod (by simp [h])]
  · rcases hsent with ⟨hne, -⟩ | ⟨-, op, route, hop, hroute, -⟩
    · exact absurd h hne
    · simp [hop, hroute]
  · simp [hmethod (by simp [h])]
  · simp [hmethod (by simp [h]), hpath (by simp [h])]

end

namespace Sample

def readOnlyPolicy : Policy := { cappedPolicy with allowedMethods := some ["GET"] }

def readOnlyText : String :=
  "\x7b\"allowed_methods\":[\"GET\"],\"order_caps\":[\x7b\"symbol\":\"BTCUSDT\"," ++
    "\"max_qty\":\"0.5\",\"max_notional\":\"40000\"\x7d]\x7d"

def readOnlyBlob : Answers :=
  { cappedBlob with
    plaintext := wrappedText readOnlyText
    parsed := .withPolicy readOnlyPolicy hmacSecret
    policyText := readOnlyText }

theorem readOnly_signed :
    ∃ resp s' t, (dispatch (env readOnlyBlob) {} limitOrder (identity ["binance"] .active)).Returns
      {} resp s' t ∧ some readOnlyPolicy ∈ acceptedPolicies t ∧ limitOrderText ∈ hmacTexts t :=
  Proc.exists_returns_of_run (by decide +kernel)

end Sample

open Sample in
/-- An order without a method is signed under a policy that allows `GET` only. -/
theorem rules_skipped :
    limitOrder.action ∈ hmacActions ∧
      (∃ resp s' t, (dispatch (env readOnlyBlob) {} limitOrder
        (identity ["binance"] .active)).Returns
        {} resp s' t ∧ some readOnlyPolicy ∈ acceptedPolicies t ∧ limitOrderText ∈ hmacTexts t) ∧
      ¬ RulesEvaluated readOnlyPolicy limitOrder := by
  refine ⟨by decide, readOnly_signed, fun h => ?_⟩
  obtain ⟨m, hm, -⟩ := h.method_allowed rfl
  cases hm

open Sample in
/-- The criterion at the sample order, which has no method. -/
theorem rules_evaluated_iff_given_limitOrder :
    RulesEvaluated readOnlyPolicy limitOrder ↔ FieldsGiven readOnlyPolicy limitOrder := by
  obtain ⟨resp, s', t, hrun, hpolicy, htext⟩ := readOnly_signed
  exact rules_evaluated_iff_given (by decide) hrun hpolicy htext

end Signer
