import Signer.Sample
import Signer.Service.Interleaving
import Signer.Service.Recent

/-!
# Intents under concurrency

The structured order and cancel routes run concurrently. A request loads its blob and passes the
caps, then has the agent's intent checked, then signs, with anything in between. The ledger of
intents is touched by the check alone, under its own lock: it holds the intents accepted last, and
an intent is accepted unless it is among them.
-/

namespace Signer

open Text Proc

inductive StructuredRoute where
  | binanceOrder | binanceCancel | okxOrder | okxCancel
  deriving DecidableEq, Repr

namespace StructuredRoute

def action : StructuredRoute → Action
  | binanceOrder => .signBinanceOrder
  | binanceCancel => .signBinanceCancel
  | okxOrder => .signOkxOrder
  | okxCancel => .signOkxCancel

def venue : StructuredRoute → String
  | binanceOrder | binanceCancel => "binance"
  | okxOrder | okxCancel => "okx"

def item (route : StructuredRoute) (req : SignRequest) : Option (OrderRequest ⊕ CancelRequest) :=
  match route with
  | binanceOrder | okxOrder => req.order.map .inl
  | binanceCancel | okxCancel => req.cancel.map .inr

end StructuredRoute

structure IntentCall where
  route : StructuredRoute
  amb : Ambient
  req : SignRequest
  identity : ResolvedIdentity

/-- What a request carries from its caps to the check of its intent. -/
structure GateInput where
  blob : Opened
  ts : UInt64
  item : OrderRequest ⊕ CancelRequest

namespace IntentCall

def front (env : Env) (call : IntentCall) : Handler GateInput := do
  let item ← Proc.ofOption (call.route.item call.req) (.err .badRequest)
  let ts ← Proc.ofOption call.req.timestampMs (.err .badRequest)
  let blob ← openBlob env call.amb call.req call.identity
  underPolicy blob.policyHash (match item with
    | .inl order => enforceOrderCap blob.policy order.symbol (some order.qty) order.price
    | .inr cancel => enforceOrderCap blob.policy cancel.symbol none none)
  pure { blob, ts, item }

def gate (env : Env) (call : IntentCall) (x : GateInput) : Handler Unit :=
  Proc.mapError (·.withPolicyHash x.blob.policyHash) <|
    match x.item with
    | .inl order => enforceAgentIntentOrder env x.blob.policy call.identity call.route.venue
        call.route.action x.ts order call.req
    | .inr cancel => enforceAgentIntentCancel env x.blob.policy call.identity call.route.venue
        call.route.action x.ts cancel call.req

def releaseBinance (env : Env) (x : GateInput) (canonical : Option String) :
    Handler SignResponse := do
  let canonical ← Proc.ofOption canonical (denyUnder x.blob.policyHash .badRequest)
  let pair ← completeSecret (env.keySecretFromValue x.blob.secretJson) KeySecret.isComplete
    x.blob.policyHash
  releaseCanonical (computeBinanceHeaders env pair.secret pair.key x.ts canonical "") canonical
    x.blob.policyHash

def rest (env : Env) (call : IntentCall) (x : GateInput) : Handler SignResponse :=
  match call.route with
  | .binanceOrder | .binanceCancel =>
    releaseBinance env x (x.item.elim buildBinanceOrderQuery buildBinanceCancelQuery)
  | .okxOrder =>
    releaseOkx env x.blob x.ts "/api/v5/trade/order"
      (x.item.elim buildOkxOrderBody buildOkxCancelBody)
  | .okxCancel =>
    releaseOkx env x.blob x.ts "/api/v5/trade/cancel-order"
      (x.item.elim buildOkxOrderBody buildOkxCancelBody)

theorem dispatch_eq (env : Env) (call : IntentCall) (h : call.req.action = call.route.action) :
    dispatch env call.amb call.req call.identity =
      call.front env >>= fun x => call.gate env x >>= fun _ => call.rest env x := by
  obtain ⟨route, amb, req, identity⟩ := call
  simp only at h
  cases route <;>
    simp only [dispatch, h, StructuredRoute.action, front, gate, rest, StructuredRoute.item,
      StructuredRoute.venue, Proc.bind_bind, Proc.pure_bind_eq]
  case binanceOrder =>
    unfold handleSignBinanceOrder
    cases req.order with
    | none => rfl
    | some order =>
      simp only [Option.map_some, Proc.ofOption_some_bind, releaseBinance, Sum.elim_inl]
  case binanceCancel =>
    unfold handleSignBinanceCancel
    cases req.cancel with
    | none => rfl
    | some cancel =>
      simp only [Option.map_some, Proc.ofOption_some_bind, releaseBinance, Sum.elim_inr]
  case okxOrder =>
    unfold handleSignOkxOrder
    cases req.order with
    | none => rfl
    | some order => simp only [Option.map_some, Proc.ofOption_some_bind, Sum.elim_inl]
  case okxCancel =>
    unfold handleSignOkxCancel
    cases req.cancel with
    | none => rfl
    | some cancel => simp only [Option.map_some, Proc.ofOption_some_bind, Sum.elim_inr]

end IntentCall

inductive IntentProgress where
  | started
  | opened (x : GateInput)
  | passed (x : GateInput)
  | finished

def takePart {α : Type} (p : Handler α) (next : α → IntentProgress) (s : Enclave) :
    List Event × IntentProgress × Enclave :=
  match p.run s with
  | ⟨.error _, s', t⟩ => (t, .finished, s')
  | ⟨.ok a, s', t⟩ => (t, next a, s')

def intentSection (env : Env) (call : IntentCall) (progress : IntentProgress) (s : Enclave) :
    List Event × IntentProgress × Enclave :=
  match progress with
  | .started => takePart (call.front env) .opened s
  | .opened x => takePart (call.gate env x) (fun _ => .passed x) s
  | .passed x => takePart (call.rest env x) (fun _ => .finished) s
  | .finished => ([], .finished, s)

abbrev IntentSystem := Interleaving.System Enclave IntentProgress

abbrev IntentStep := Run.Step ℕ IntentSystem (List Event)

def intentSteps (env : Env) (calls : ℕ → IntentCall) (s : Enclave) (schedule : List ℕ) :
    List IntentStep :=
  Run.steps (Interleaving.step fun i => intentSection env (calls i))
    { shared := { s with ledger := {} }, progress := fun _ => .started } schedule

def acceptedIn (steps : List IntentStep) : List AgentIntent :=
  steps.flatMap fun step => acceptedIntents step.output

/-! ### What the ledger holds -/

/-- The ledger holds the intents accepted last. -/
structure IntentLedger.Holds (l : IntentLedger) (history : List String) : Prop where
  order_eq : l.order = history.rtake maxTrackedNonces
  seen_eq : l.seen = l.order.toFinset
  nodup : l.order.Nodup

/-- Set and queue hold the same keys, no more than fit. -/
structure IntentLedger.Sound (l : IntentLedger) : Prop where
  seen_eq : l.seen = l.order.toFinset
  nodup : l.order.Nodup
  card_le : l.seen.card ≤ maxTrackedNonces

namespace IntentLedger

variable {l l' : IntentLedger} {history : List String} {key : String}

theorem Holds.nil : ({} : IntentLedger).Holds [] := ⟨by simp [List.rtake], rfl, List.nodup_nil⟩

theorem Holds.sound (h : l.Holds history) : l.Sound := by
  refine ⟨h.seen_eq, h.nodup, ?_⟩
  rw [h.seen_eq, List.toFinset_card_of_nodup h.nodup, h.order_eq, Recent.length_rtake]
  exact Nat.min_le_left _ _

theorem Holds.mem_seen (h : l.Holds history) :
    key ∈ l.seen ↔ key ∈ history.rtake maxTrackedNonces := by
  rw [h.seen_eq, List.mem_toFinset, h.order_eq]

theorem holds_record (hseen : l.seen = l.order.toFinset) (hnodup : l.order.Nodup)
    (hkey : key ∉ l.order) (horder : (history ++ [key]).rtake maxTrackedNonces = l.order ++ [key]) :
    Holds { seen := insert key l.seen, order := l.order ++ [key] } (history ++ [key]) := by
  refine ⟨horder.symm, ?_, ?_⟩
  · ext k
    simp [hseen]
  · exact hnodup.append (List.nodup_singleton key) (by simpa using hkey)

theorem Holds.forgetOldest (h : l.Holds history) :
    l.forgetOldest.seen = l.forgetOldest.order.toFinset ∧ l.forgetOldest.order.Nodup ∧
      l.forgetOldest.order =
        if history.length < maxTrackedNonces then l.order else l.order.tail := by
  have hcard : l.seen.card = min maxTrackedNonces history.length := by
    rw [h.seen_eq, List.toFinset_card_of_nodup h.nodup, h.order_eq, Recent.length_rtake]
  unfold IntentLedger.forgetOldest
  by_cases hroom : history.length < maxTrackedNonces
  · have hlt : l.seen.card < maxTrackedNonces := by omega
    rw [if_pos hlt, if_pos hroom]
    exact ⟨h.seen_eq, h.nodup, rfl⟩
  · have hfull : ¬ l.seen.card < maxTrackedNonces := by omega
    rw [if_neg hfull, if_neg hroom]
    have hseen := h.seen_eq
    have hnodup := h.nodup
    cases horder : l.order with
    | nil =>
      rw [horder] at hseen hnodup
      exact ⟨by simpa [horder] using hseen, by simp [horder], by simp [horder]⟩
    | cons oldest order =>
      rw [horder] at hseen hnodup
      obtain ⟨hfresh, hrest⟩ := List.nodup_cons.mp hnodup
      refine ⟨?_, hrest, rfl⟩
      simp [hseen, Finset.erase_insert (List.mem_toFinset.not.mpr hfresh)]

theorem Holds.recordIfNew (h : l.Holds history) (key : String) :
    key ∈ history.rtake maxTrackedNonces ∧ l.recordIfNew key = (false, l) ∨
      key ∉ history.rtake maxTrackedNonces ∧ (l.recordIfNew key).1 = true ∧
        (l.recordIfNew key).2.Holds (history ++ [key]) := by
  by_cases hkey : key ∈ l.seen
  · exact .inl ⟨h.mem_seen.mp hkey, if_pos hkey⟩
  · have hrecord : l.recordIfNew key =
        (true, ⟨insert key l.forgetOldest.seen, l.forgetOldest.order ++ [key]⟩) := if_neg hkey
    obtain ⟨hseen, hnodup, horder⟩ := h.forgetOldest
    have hnotMem : key ∉ l.order := fun hmem => hkey (by rwa [h.seen_eq, List.mem_toFinset])
    rw [hrecord]
    refine .inr ⟨mt h.mem_seen.mpr hkey, rfl, holds_record hseen hnodup ?_ ?_⟩
    · rw [horder]
      split
      · exact hnotMem
      · exact fun hmem => hnotMem (List.mem_of_mem_tail hmem)
    · rw [horder, Recent.rtake_concat (by decide), h.order_eq]

theorem recordIfNew_old (h : ¬ (l.recordIfNew key).1 = true) : (l.recordIfNew key).2 = l := by
  unfold IntentLedger.recordIfNew at h ⊢
  split at h
  · rename_i hkey
    rw [if_pos hkey]
  · exact absurd rfl h

end IntentLedger

/-! ### What the parts of a request do to the ledger -/

def intentKey (env : Env) (message : Bytes) : String := hexEncode (env.sha256 message)

def AgentSigned (env : Env) (pubkey : String) (signature : Option String) (message : Bytes) :
    Prop :=
  ∃ vk sigHex sig, hexDecodeExact 32 pubkey = some vk ∧ signature = some sigHex ∧
    hexDecodeExact 64 sigHex = some sig ∧ env.ed25519Verify vk message sig = true

def AcceptsOrLeaves (env : Env) (Q : AgentIntent → Prop) (s s' : Enclave) (t : List Event) : Prop :=
  acceptedIntents t = [] ∧ s'.ledger = s.ledger ∨
    ∃ i, acceptedIntents t = [i] ∧ Q i ∧
      s.ledger.recordIfNew (intentKey env i.message) = (true, s'.ledger)

theorem AcceptsOrLeaves.of_named {env : Env} {s s' : Enclave} {t : List Event} {pubkey : String}
    {message : Bytes} {signature : Option String}
    (h : AcceptsOrLeaves env (fun i => (i.pubkey, i.message) = (pubkey, message) ∧
      AgentSigned env pubkey signature message) s s' t) :
    AcceptsOrLeaves env (fun i => some (pubkey, message) = some (i.pubkey, i.message) ∧
      AgentSigned env i.pubkey signature i.message) s s' t := by
  refine h.imp_right fun ⟨i, hi, ⟨hnamed, hsigned⟩, hrecord⟩ => ?_
  cases hnamed
  exact ⟨i, hi, ⟨rfl, hsigned⟩, hrecord⟩

def IntentCall.intent (call : IntentCall) (x : GateInput) : Option (String × Bytes) := do
  let pubkey ← x.blob.policy.bind Policy.intentPubkey
  match x.item with
  | .inl order =>
    let coid ← order.clientOrderId
    pure (pubkey, buildAgentIntentMsgOrder call.identity.customerId call.route.venue
      call.route.action x.ts coid order)
  | .inr cancel =>
    let nonce ← call.req.intentNonce
    pure (pubkey, buildAgentIntentMsgCancel call.identity.customerId call.route.venue
      call.route.action x.ts nonce cancel)

section

variable {env : Env} {s : Enclave}

theorem verifyAgentIntent_run {pubkey : String} {signature : Option String} {message : Bytes} :
    AcceptsOrLeaves env
      (fun i => (i.pubkey, i.message) = (pubkey, message) ∧
        AgentSigned env pubkey signature message)
      s ((verifyAgentIntent env pubkey signature message).run s).state
      ((verifyAgentIntent env pubkey signature message).run s).trace := by
  simp only [verifyAgentIntent, Proc.run_ofOption_bind, Proc.run_ensure_bind]
  cases hvk : hexDecodeExact 32 pubkey with
  | none => exact .inl ⟨rfl, rfl⟩
  | some vk =>
    rw [Option.elim_some]
    split
    case isFalse => exact .inl ⟨rfl, rfl⟩
    cases hsigHex : signature with
    | none => exact .inl ⟨rfl, rfl⟩
    | some sigHex =>
      rw [Option.elim_some]
      cases hsig : hexDecodeExact 64 sigHex with
      | none => exact .inl ⟨rfl, rfl⟩
      | some sig =>
        rw [Option.elim_some]
        split
        case isFalse => exact .inl ⟨rfl, rfl⟩
        rename_i hverify
        simp only [Proc.run_update_bind, Proc.run_ensure_bind]
        split
        case isTrue hnew =>
          exact .inr ⟨⟨pubkey, sigHex, message⟩, rfl,
            ⟨rfl, vk, sigHex, sig, hvk, rfl, hsig, hverify⟩, Prod.ext hnew rfl⟩
        case isFalse hold => exact .inl ⟨rfl, IntentLedger.recordIfNew_old hold⟩

theorem IntentCall.gate_run {call : IntentCall} {x : GateInput} :
    AcceptsOrLeaves env
      (fun i => call.intent x = some (i.pubkey, i.message) ∧
        AgentSigned env i.pubkey call.req.intentSignature i.message)
      s ((call.gate env x).run s).state ((call.gate env x).run s).trace := by
  simp only [gate, intent, Proc.run_mapError_state, Proc.run_mapError_trace]
  cases x.item with
  | inl order =>
    simp only [enforceAgentIntentOrder]
    cases x.blob.policy.bind Policy.intentPubkey with
    | none => exact .inl ⟨rfl, rfl⟩
    | some pubkey =>
      simp only [Proc.run_ofOption_bind]
      cases order.clientOrderId with
      | none => exact .inl ⟨rfl, rfl⟩
      | some coid => exact verifyAgentIntent_run.of_named
  | inr cancel =>
    simp only [enforceAgentIntentCancel]
    cases x.blob.policy.bind Policy.intentPubkey with
    | none => exact .inl ⟨rfl, rfl⟩
    | some pubkey =>
      simp only [Proc.run_ofOption_bind]
      cases call.req.intentNonce with
      | none => exact .inl ⟨rfl, rfl⟩
      | some nonce => exact verifyAgentIntent_run.of_named

theorem quiet_of_performs {α : Type} {p : Handler α}
    (hperforms : p.Performs fun op => ∀ i, op ≠ .intentAccepted i)
    (hkeeps : ∀ l, p.Keeps fun s => s.ledger = l) :
    acceptedIntents (p.run s).trace = [] ∧ (p.run s).state.ledger = s.ledger := by
  refine ⟨?_, hkeeps s.ledger s rfl⟩
  refine List.eq_nil_iff_forall_not_mem.mpr fun i hi => ?_
  exact hperforms s _ (mem_acceptedIntents.mp hi) i rfl

theorem loadInvariant_ledger (l : IntentLedger) : LoadInvariant env fun s => s.ledger = l where
  get _ _ _ hs := hs
  put _ _ _ _ _ _ _ hs := hs
  pins _ _ _ _ hs := hs

theorem IntentCall.front_quiet {call : IntentCall} :
    acceptedIntents ((call.front env).run s).trace = [] ∧
      ((call.front env).run s).state.ledger = s.ledger := by
  refine quiet_of_performs ?_ fun l => ?_
  · exact performs_bind (performs_ofOption _ _) fun item =>
      performs_bind (performs_ofOption _ _) fun ts =>
      performs_bind (openBlob_performs (by simp)) fun blob =>
      performs_bind (performs_ofExcept _) fun _ => performs_pure _
  · simp [front, keeps_openBlob_bind (loadInvariant_ledger l)]

theorem IntentCall.rest_quiet {call : IntentCall} {x : GateInput} :
    acceptedIntents ((call.rest env x).run s).trace = [] ∧
      ((call.rest env x).run s).state.ledger = s.ledger := by
  have hrelease : ∀ headers canonical,
      (releaseCanonical headers canonical x.blob.policyHash).Performs
        fun op => ∀ i, op ≠ .intentAccepted i := fun headers canonical =>
    performs_bind (performs_bind (performs_perform (by simp)) fun _ =>
      performs_pure _) fun _ => performs_pure _
  have hbinance : ∀ canonical, (releaseBinance env x canonical).Performs
      fun op => ∀ i, op ≠ .intentAccepted i := fun canonical =>
    performs_bind (performs_ofOption _ _) fun text =>
      performs_bind (performs_ofOption _ _) fun pair => hrelease _ _
  have hokx : ∀ path canonical, (releaseOkx env x.blob x.ts path canonical).Performs
      fun op => ∀ i, op ≠ .intentAccepted i := fun path canonical =>
    performs_bind (performs_ofOption _ _) fun text =>
      performs_bind (performs_ofOption _ _) fun triple =>
      performs_bind (performs_ofOption _ _) fun headers => hrelease _ _
  unfold rest
  split
  · exact quiet_of_performs (hbinance _) fun l => by simp [releaseBinance]
  · exact quiet_of_performs (hbinance _) fun l => by simp [releaseBinance]
  · exact quiet_of_performs (hokx _ _) fun l => by simp [releaseOkx]
  · exact quiet_of_performs (hokx _ _) fun l => by simp [releaseOkx]

theorem takePart_eq {α : Type} {p : Handler α} {next : α → IntentProgress} :
    (takePart p next s).1 = (p.run s).trace ∧ (takePart p next s).2.2 = (p.run s).state := by
  unfold takePart
  split <;> simp_all

theorem intentSection_run (env : Env) (s : Enclave) (call : IntentCall)
    (progress : IntentProgress) :
    AcceptsOrLeaves env
      (fun i => ∃ x, progress = .opened x ∧ call.intent x = some (i.pubkey, i.message) ∧
        AgentSigned env i.pubkey call.req.intentSignature i.message)
      s (intentSection env call progress s).2.2 (intentSection env call progress s).1 := by
  cases progress with
  | started =>
    rw [intentSection, takePart_eq.1, takePart_eq.2]
    exact .inl call.front_quiet
  | opened x =>
    rw [intentSection, takePart_eq.1, takePart_eq.2]
    exact call.gate_run.imp_right fun ⟨i, hi, hsigned, hrecord⟩ =>
      ⟨i, hi, ⟨x, rfl, hsigned⟩, hrecord⟩
  | passed x =>
    rw [intentSection, takePart_eq.1, takePart_eq.2]
    exact .inl call.rest_quiet
  | finished => exact .inl ⟨rfl, rfl⟩

end

/-! ### Whole runs -/

section

variable {env : Env} {calls : ℕ → IntentCall} {s : Enclave} {schedule : List ℕ}
  {step : IntentStep}

theorem intent_step (hstep : step ∈ intentSteps env calls s schedule) :
    AcceptsOrLeaves env
      (fun i => ∃ x, step.before.progress step.input = .opened x ∧
        (calls step.input).intent x = some (i.pubkey, i.message) ∧
        AgentSigned env i.pubkey (calls step.input).req.intentSignature i.message)
      step.before.shared step.after.shared step.output := by
  obtain ⟨htaken, -⟩ := Interleaving.step_eq (Run.mem_steps hstep).2
  have hrun := intentSection_run env step.before.shared (calls step.input)
    (step.before.progress step.input)
  rw [htaken] at hrun
  exact hrun

def acceptedKeys (env : Env) (steps : List IntentStep) : List String :=
  (acceptedIn steps).map fun i => intentKey env i.message

theorem acceptedKeys_append (steps steps' : List IntentStep) :
    acceptedKeys env (steps ++ steps') = acceptedKeys env steps ++ acceptedKeys env steps' := by
  simp [acceptedKeys, acceptedIn]

theorem holds_of_steps {before after : List IntentStep}
    (h : intentSteps env calls s schedule = before ++ step :: after) :
    (step.before.shared.ledger.Holds (acceptedKeys env before) ∧
      Recent.Admitted maxTrackedNonces (acceptedKeys env before)) ∧
    step.after.shared.ledger.Holds (acceptedKeys env (before ++ [step])) ∧
      Recent.Admitted maxTrackedNonces (acceptedKeys env (before ++ [step])) := by
  refine Run.invariant_history
    (H := fun before sys => sys.shared.ledger.Holds (acceptedKeys env before) ∧
      Recent.Admitted maxTrackedNonces (acceptedKeys env before)) ?_ ?_ h
  · exact ⟨.nil, .nil⟩
  · rintro before step hstep ⟨hholds, hadmitted⟩
    rw [acceptedKeys_append]
    rcases intent_step hstep with ⟨hnone, hledger⟩ | ⟨i, hone, -, hrecord⟩
    · have hkeys : acceptedKeys env [step] = [] := by simp [acceptedKeys, acceptedIn, hnone]
      rw [hkeys, List.append_nil, hledger]
      exact ⟨hholds, hadmitted⟩
    · have hkeys : acceptedKeys env [step] = [intentKey env i.message] := by
        simp [acceptedKeys, acceptedIn, hone]
      rw [hkeys]
      rcases hholds.recordIfNew (intentKey env i.message) with ⟨-, hold⟩ | ⟨hfresh, -, hnext⟩
      · rw [hrecord] at hold
        cases hold
      · rw [hrecord] at hnext
        exact ⟨hnext, .snoc hadmitted hfresh⟩

theorem admitted_of_steps (env : Env) (calls : ℕ → IntentCall) (s : Enclave) (schedule : List ℕ) :
    Recent.Admitted maxTrackedNonces (acceptedKeys env (intentSteps env calls s schedule)) := by
  rcases List.eq_nil_or_concat (intentSteps env calls s schedule) with hnil | ⟨before, last, hlast⟩
  · rw [hnil]
    exact .nil
  · rw [List.concat_eq_append] at hlast
    rw [hlast]
    exact (holds_of_steps hlast).2.2

end

/-- An intent is honoured at most once. In every interleaving of structured requests since a
boot, a message is accepted at most once in any stretch in which fewer than
`maxTrackedNonces` intents with other messages are. Set and queue of the ledger hold the
same keys in every state, without duplicates and no more than fit. A part of a request
whose agent did not sign leaves the ledger as it is. -/
theorem intent_honoured_once (env : Env) (calls : ℕ → IntentCall) (s : Enclave)
    (schedule : List ℕ) :
    (∀ before stretch after message,
      intentSteps env calls s schedule = before ++ stretch ++ after →
      (acceptedIn stretch).countP (·.message ≠ message) < maxTrackedNonces →
      (acceptedIn stretch).countP (·.message = message) ≤ 1) ∧
    (∀ step ∈ intentSteps env calls s schedule,
      step.before.shared.ledger.Sound ∧ step.after.shared.ledger.Sound) ∧
    ∀ step ∈ intentSteps env calls s schedule,
      (∀ x pubkey message, step.before.progress step.input = .opened x →
        (calls step.input).intent x = some (pubkey, message) →
        ¬ AgentSigned env pubkey (calls step.input).req.intentSignature message) →
      step.after.shared.ledger = step.before.shared.ledger := by
  refine ⟨fun before stretch after message hsteps hothers => ?_, fun step hstep => ?_,
    fun step hstep hunsigned => ?_⟩
  · have hadmitted := admitted_of_steps env calls s schedule
    rw [hsteps, acceptedKeys_append, acceptedKeys_append] at hadmitted
    have hkeys : (acceptedKeys env stretch).countP (· ≠ intentKey env message) <
        maxTrackedNonces := by
      refine Nat.lt_of_le_of_lt ?_ hothers
      rw [acceptedKeys, List.countP_map]
      refine List.countP_mono_left fun i _ hne => ?_
      simp only [Function.comp_apply, decide_eq_true_eq] at hne ⊢
      exact fun hsame => hne (congrArg (intentKey env) hsame)
    refine Nat.le_trans ?_ (hadmitted.of_append.count_le_one hkeys)
    rw [acceptedKeys, List.count, List.countP_map]
    refine List.countP_mono_left fun i _ hsame => ?_
    simp only [Function.comp_apply, decide_eq_true_eq, beq_iff_eq] at hsame ⊢
    exact congrArg (intentKey env) hsame
  · obtain ⟨before, after, hsplit⟩ := List.append_of_mem hstep
    have hholds := holds_of_steps hsplit
    exact ⟨hholds.1.1.sound, hholds.2.1.sound⟩
  · rcases intent_step hstep with ⟨-, hledger⟩ | ⟨i, -, ⟨x, hx, hintent, hsigned⟩, -⟩
    · exact hledger
    · exact absurd hsigned (hunsigned x _ _ hx hintent)

namespace Sample

def agentCall : IntentCall where
  route := .binanceOrder
  amb := {}
  req := agentOrder
  identity := identity ["binance"] .active

/-- Two calls with the same order, each past its front before the intent of either is checked. -/
def replayed : List IntentStep :=
  intentSteps (env agentBlob) (fun _ => agentCall) {} [0, 1, 0, 1, 0]

end Sample

open Sample in
/-- The intent of an order that is sent twice is accepted once. -/
theorem intent_honoured_once_replayed :
    (acceptedIn replayed).map AgentIntent.message = [agentIntentMsg] ∧
      (acceptedIn replayed).countP (·.message = agentIntentMsg) ≤ 1 ∧
      ∀ step ∈ replayed, step.after.shared.ledger.Sound := by
  have haccepted : (acceptedIn replayed).map AgentIntent.message = [agentIntentMsg] := by
    decide +kernel
  obtain ⟨honce, hsound, -⟩ :=
    intent_honoured_once (env agentBlob) (fun _ => agentCall) {} [0, 1, 0, 1, 0]
  refine ⟨haccepted, honce [] replayed [] _ (by simp [replayed]) ?_,
    fun step hstep => (hsound step hstep).2⟩
  refine Nat.lt_of_le_of_lt List.countP_le_length ?_
  rw [← List.length_map AgentIntent.message, haccepted]
  decide

end Signer
