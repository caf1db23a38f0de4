import Signer.Gateway.DayTotals
import Signer.Gateway.SignX402
import Signer.Sample

/-!
# Payments over time

Payment requests run concurrently: each is charged under the lock and later makes its round trip to
the enclave, in whatever state that then is. The disk takes a write or not, the clock moves as it
likes, and a restart forgets the requests under way.
-/

namespace Signer.Gateway

open Text
open PeriodLedger (Grant granted)

inductive PaymentEvent where
  | request (customer token : String) (req : SignX402Request) (now : Nat) (reads writes : Bool)
  | answer (i : Nat) (trip : RoundTrip)
  | bootProbe (now : Nat) (reads writes : Bool)
  | restart

inductive PaymentOutput where
  | refused (code : GatewayCode)
  | gated (decision : LimitDecision)
  | answered (reply : PaymentReply) (exchange : Option (SignRequest × Served))
  | quiet

structure PaymentState where
  spend : DayStore (BitVec 128)
  inFlight : List InFlight := []

namespace PaymentGateway

def paymentEvent (gateway : PaymentGateway) (env : Env) (event : PaymentEvent) (s : PaymentState) :
    PaymentOutput × PaymentState :=
  match event with
  | .request customer token req now reads writes =>
    match gateway.admitPayment customer token req with
    | .error code => (.refused code, s)
    | .ok payment =>
      let gated := gateway.x402SpendGate reads writes payment now s.spend
      match denyCode gated.1 with
      | some _ => (.gated gated.1, { s with spend := gated.2 })
      | none =>
        (.gated gated.1,
          { spend := gated.2, inFlight := s.inFlight ++ [{ payment with day := today now }] })
  | .answer i trip =>
    match s.inFlight[i]? with
    | none => (.quiet, s)
    | some charged =>
      let done := gateway.forward env charged.toPayment trip
      (.answered done.1 done.2, { s with inFlight := s.inFlight.eraseIdx i })
  | .bootProbe now reads writes =>
    (.quiet, { s with spend := (s.spend.bootProbe gateway.spendCodec reads writes now).2 })
  | .restart => (.quiet, { spend := s.spend.restart, inFlight := [] })

end PaymentGateway

abbrev PaymentStep := Run.Step PaymentEvent PaymentState PaymentOutput

namespace PaymentStep

def signedOn (scope : String) (day : Nat) (step : PaymentStep) : Nat :=
  match step.input, step.output with
  | .answer i _, .answered (.ok _ _) (some (_, served)) =>
    match step.before.inFlight[i]? with
    | some charged =>
      if charged.scope = scope ∧ charged.day = day then
        ((transfersOf served.trace).map TransferAuthorization.value).sum
      else 0
    | none => 0
  | _, _ => 0

/-- The signature is over the transfer that was charged. -/
def ReturnsTransfer (env : Env) (step : PaymentStep) : Prop :=
  ∀ i trip signature sender exchange, step.input = .answer i trip →
    step.output = .answered (.ok signature sender) exchange →
    ∃ charged req served transfer key, step.before.inFlight[i]? = some charged ∧
      exchange = some (req, served) ∧ transferOf charged.x402 = some transfer ∧
      parseU256BeDecimal charged.x402.value = some (beBytes 32 transfer.value) ∧
      transfersOf served.trace = [transfer] ∧ signX402Eip3009 env key transfer = some signature

/-- The enclave gets the payment as it came. -/
def ForwardsVerbatim (step : PaymentStep) : Prop :=
  ∀ i trip reply req served, step.input = .answer i trip →
    step.output = .answered reply (some (req, served)) →
    ∃ charged, step.before.inFlight[i]? = some charged ∧ req.x402 = some charged.x402

/-- A payment is charged by its value, without overflow, or not at all. -/
def ChargesExactly (gateway : PaymentGateway) (step : PaymentStep) : Prop :=
  ∀ customer token req now reads writes payment s,
    step.input = .request customer token req now reads writes → now ≠ 0 →
    gateway.admitPayment customer token req = .ok payment →
    step.before.spend.resolve gateway.spendCodec reads (today now) = some s →
    let key := keyHex gateway.sha256 payment.scope
    step.after.spend.cache = some s ∨
      step.after.spend.cache = some (s.set key (s.total key + payment.value)) ∧
        (s.total key + payment.value).toNat = (s.total key).toNat + payment.value.toNat

/-- A denied payment is not charged. -/
def DeniesUncharged (gateway : PaymentGateway) (step : PaymentStep) : Prop :=
  ∀ customer token req now reads writes retry,
    step.input = .request customer token req now reads writes →
    step.output = .gated (.x402CapExhausted retry) →
    ∃ s, step.before.spend.resolve gateway.spendCodec reads (today now) = some s ∧
      step.after.spend = { step.before.spend with cache := some s }

end PaymentStep

/-! ### One charge -/

section

variable {limits : Limits} {cap : BitVec 128}

theorem Limits.checkAndCountX402Spend_cases (hdry : limits.dryRun = false)
    (hcap : limits.x402PeriodCap = some cap) (sha256 : Bytes → Bytes)
    (codec : AtomicFile.Codec (DayState (BitVec 128))) (reads writes : Bool) (scope : String)
    (value : BitVec 128) (now : Nat) (store : DayStore (BitVec 128)) :
    let checked := limits.checkAndCountX402Spend sha256 codec reads writes scope value now store
    let key := keyHex sha256 scope
    (checked = (.counterUnavailable, store) ∧
        (now = 0 ∨ store.resolve codec reads (today now) = none)) ∨
      ∃ s, store.resolve codec reads (today now) = some s ∧ now ≠ 0 ∧
        ((checked.1 ≠ .allow ∧ checked.2 = { store with cache := some s }) ∨
          (((s.total key).toNat + value.toNat < 2 ^ 128 ∧ s.total key + value ≤ cap) ∧
            let written := store.writeThrough codec writes (s.set key (s.total key + value))
            (checked.1 = if written.1 then .allow else .counterUnavailable) ∧
              checked.2 = written.2)) := by
  intro checked key
  obtain ⟨path, hpath⟩ := Option.isSome_iff_exists.mp
    (limits.x402SpendPath_isSome (by rw [hcap]; rfl))
  have hrefused : limits.unavailable = .counterUnavailable := by simp [unavailable, hdry]
  simp only [checked, key, checkAndCountX402Spend, hcap, hpath, hdry, hrefused]
  by_cases hnow : now = 0
  · rw [if_pos hnow]
    exact .inl ⟨rfl, .inl hnow⟩
  rw [if_neg hnow]
  cases hresolve : store.resolve codec reads (today now) with
  | none => exact .inl ⟨rfl, .inr rfl⟩
  | some s =>
    refine .inr ⟨s, rfl, hnow, ?_⟩
    dsimp only
    split
    · exact .inl ⟨by simp, rfl⟩
    · rename_i hfits
      split
      · exact .inl ⟨by simp, rfl⟩
      · rename_i hwithin
        simp only [Bool.not_false, and_true, BitVec.not_lt] at hwithin
        exact .inr ⟨⟨Nat.not_le.mp hfits, hwithin⟩, rfl, rfl⟩

end

/-! ### The payments of a run -/

def pendingOn (inFlight : List InFlight) (scope : String) (day : Nat) : Nat :=
  (inFlight.map fun charged =>
    if charged.scope = scope ∧ charged.day = day then charged.value.toNat else 0).sum

theorem pendingOn_append_singleton (inFlight : List InFlight) (charged : InFlight) (scope : String)
    (day : Nat) : pendingOn (inFlight ++ [charged]) scope day = pendingOn inFlight scope day +
      if charged.scope = scope ∧ charged.day = day then charged.value.toNat else 0 := by
  simp [pendingOn]

theorem pendingOn_eraseIdx {inFlight : List InFlight} {i : Nat} {charged : InFlight}
    (h : inFlight[i]? = some charged) (scope : String) (day : Nat) :
    (if charged.scope = scope ∧ charged.day = day then charged.value.toNat else 0) +
      pendingOn (inFlight.eraseIdx i) scope day = pendingOn inFlight scope day := by
  obtain ⟨hi, rfl⟩ := List.getElem?_eq_some_iff.mp h
  have hperm := (List.getElem_cons_eraseIdx_perm hi).map fun charged : InFlight =>
    if charged.scope = scope ∧ charged.day = day then charged.value.toNat else 0
  simpa [pendingOn] using hperm.sum_eq

/-- The store covers the charges, which cover what is signed or under way. -/
structure SpendSound (gateway : PaymentGateway) (cap : BitVec 128) (grants : List (Grant String))
    (signed : String → Nat → Nat) (s : PaymentState) : Prop where
  sound : s.spend.Sound BitVec.toNat (keyHex gateway.sha256) gateway.spendCodec grants
  within : ∀ scope day, granted grants scope day ≤ cap.toNat
  covered : ∀ scope day,
    signed scope day + pendingOn s.inFlight scope day ≤ granted grants scope day

section

variable {gateway : PaymentGateway} {env : Env} {cap : BitVec 128} {grants : List (Grant String)}
  {signed : String → Nat → Nat} {s : PaymentState} (hdry : gateway.limits.dryRun = false)
  (hcap : gateway.limits.x402PeriodCap = some cap) (hcodec : gateway.spendCodec.RoundTrip)
  (hreads : gateway.ReadsBack env)

include hdry hcap hcodec in
theorem sound_checkAndCountX402Spend {store : DayStore (BitVec 128)}
    (h : store.Sound BitVec.toNat (keyHex gateway.sha256) gateway.spendCodec grants)
    (hwithin : ∀ scope day, granted grants scope day ≤ cap.toNat) (reads writes : Bool)
    (scope : String) (value : BitVec 128) (now : Nat) :
    let checked := gateway.limits.checkAndCountX402Spend gateway.sha256 gateway.spendCodec reads
      writes scope value now store
    let after := if checked.1 = .allow then grants ++ [⟨scope, today now, value.toNat⟩] else grants
    checked.2.Sound BitVec.toNat (keyHex gateway.sha256) gateway.spendCodec after ∧
      ∀ scope day, granted after scope day ≤ cap.toNat := by
  intro checked after
  rcases Limits.checkAndCountX402Spend_cases hdry hcap gateway.sha256 gateway.spendCodec reads
    writes scope value now store with
    ⟨hchecked, -⟩ | ⟨s, hresolve, -, ⟨hrefused, hstore⟩ | ⟨⟨hfits, hcapped⟩, hallow, hstore⟩⟩
  · have hafter : after = grants := by
      simp only [after, checked, hchecked]
      rfl
    rw [hafter, show checked.2 = store by simp only [checked, hchecked]]
    exact ⟨h, hwithin⟩
  · rw [show after = grants from if_neg hrefused, hstore]
    exact ⟨h.keep (h.resolve hresolve).1, hwithin⟩
  · obtain ⟨hcovers, hday⟩ := h.resolve hresolve
    have hnext : (s.total (keyHex gateway.sha256 scope) + value).toNat =
        (s.total (keyHex gateway.sha256 scope)).toNat + value.toNat := by
      rw [BitVec.toNat_add]
      exact Nat.mod_eq_of_lt hfits
    rw [hstore]
    cases hwritten : (store.writeThrough gateway.spendCodec writes
        (s.set (keyHex gateway.sha256 scope) (s.total (keyHex gateway.sha256 scope) + value))).1 with
    | false =>
      have hrefused : checked.1 ≠ .allow := by
        rw [hallow, hwritten]
        nofun
      rw [show after = grants from if_neg hrefused]
      exact ⟨h.unwritten (hcovers.set (by omega)) hwritten, hwithin⟩
    | true =>
      have hallowed : checked.1 = .allow := by
        rw [hallow, hwritten]
        rfl
      rw [show after = grants ++ [⟨scope, today now, value.toNat⟩] from if_pos hallowed]
      have hmore : (s.set (keyHex gateway.sha256 scope)
          (s.total (keyHex gateway.sha256 scope) + value)).Covers BitVec.toNat (keyHex gateway.sha256)
            (grants ++ [⟨scope, today now, value.toNat⟩]) :=
        hcovers.set_append hday.symm hnext.ge
      have hkey := hcovers scope
      rw [hday] at hkey
      have hle : (s.total (keyHex gateway.sha256 scope)).toNat + value.toNat ≤ cap.toNat :=
        hnext ▸ BitVec.le_def.mp hcapped
      exact ⟨.written hcodec hmore hwritten, PeriodLedger.granted_append_le hwithin hkey hle⟩

theorem denyCode_eq_none_iff {decision : LimitDecision} :
    denyCode decision = none ↔ decision = .allow := by
  cases decision <;> simp [denyCode]

include hdry hcap hcodec in
theorem SpendSound.request (h : SpendSound gateway cap grants signed s) (env : Env)
    (customer token : String) (req : SignX402Request) (now : Nat) (reads writes : Bool) :
    ∃ grants, SpendSound gateway cap grants signed
      (gateway.paymentEvent env (.request customer token req now reads writes) s).2 := by
  simp only [PaymentGateway.paymentEvent]
  cases hpayment : gateway.admitPayment customer token req with
  | error code => exact ⟨grants, h⟩
  | ok payment =>
    have hgate : gateway.x402SpendGate reads writes payment now s.spend =
        gateway.limits.checkAndCountX402Spend gateway.sha256 gateway.spendCodec reads writes
          payment.scope payment.value now s.spend := by
      simp [PaymentGateway.x402SpendGate, hcap]
    obtain ⟨hsound, hwithin⟩ := sound_checkAndCountX402Spend hdry hcap hcodec h.sound h.within
      reads writes payment.scope payment.value now
    rw [← hgate] at hsound hwithin
    dsimp only
    split
    · rename_i code hcode
      have hrefused : (gateway.x402SpendGate reads writes payment now s.spend).1 ≠ .allow := by
        intro hallowed
        rw [denyCode_eq_none_iff.mpr hallowed] at hcode
        cases hcode
      rw [if_neg hrefused] at hsound hwithin
      exact ⟨grants, hsound, hwithin, h.covered⟩
    · rename_i hcode
      rw [if_pos (denyCode_eq_none_iff.mp hcode)] at hsound hwithin
      refine ⟨_, hsound, hwithin, fun scope day => ?_⟩
      have hbefore := h.covered scope day
      rw [pendingOn_append_singleton, PeriodLedger.granted_append_singleton]
      dsimp only
      omega

include hreads in
theorem signedOn_answer_le (i : Nat) (trip : RoundTrip)
    {charged : InFlight} (hcharged : s.inFlight[i]? = some charged) (scope : String) (day : Nat) :
    PaymentStep.signedOn scope day
        ⟨.answer i trip, s, (gateway.paymentEvent env (.answer i trip) s).1,
          (gateway.paymentEvent env (.answer i trip) s).2⟩ ≤
      if charged.scope = scope ∧ charged.day = day then charged.value.toNat else 0 := by
  rcases hforward : gateway.forward env charged.toPayment trip with ⟨reply, exchange⟩
  have houtput : (gateway.paymentEvent env (.answer i trip) s).1 = .answered reply exchange := by
    simp only [PaymentGateway.paymentEvent, hcharged, hforward]
  rw [houtput]
  cases reply with
  | denied code => exact Nat.zero_le _
  | ok signature sender =>
    obtain ⟨req, served, transfer, key, rfl, -, -, htransfers, hvalue⟩ :=
      PaymentGateway.forward_ok hreads hforward
    simp only [PaymentStep.signedOn]
    rw [hcharged]
    simp [htransfers, hvalue]

include hdry hcap hcodec hreads in
theorem SpendSound.event {step : PaymentStep}
    (h : SpendSound gateway cap grants signed step.before)
    (hstep : gateway.paymentEvent env step.input step.before = (step.output, step.after)) :
    ∃ grants, SpendSound gateway cap grants
      (fun scope day => signed scope day + step.signedOn scope day) step.after := by
  obtain ⟨input, before, output, after⟩ := step
  dsimp only at h hstep
  cases input with
  | request customer token req now reads writes =>
    have hnext := h.request hdry hcap hcodec env customer token req now reads writes
    rw [hstep] at hnext
    simpa [PaymentStep.signedOn] using hnext
  | answer i trip =>
    cases hcharged : before.inFlight[i]? with
    | none =>
      simp only [PaymentGateway.paymentEvent, hcharged, Prod.mk.injEq] at hstep
      obtain ⟨rfl, rfl⟩ := hstep
      exact ⟨grants, by simpa [PaymentStep.signedOn] using h⟩
    | some charged =>
      have hle := signedOn_answer_le hreads i trip hcharged
      rw [hstep] at hle
      simp only [PaymentGateway.paymentEvent, hcharged, Prod.mk.injEq] at hstep
      obtain ⟨-, rfl⟩ := hstep
      refine ⟨grants, h.sound, h.within, fun scope day => ?_⟩
      have hcovered := h.covered scope day
      have hrest := pendingOn_eraseIdx hcharged scope day
      have hthis := hle scope day
      dsimp only at hthis ⊢
      omega
  | bootProbe now reads writes =>
    simp only [PaymentGateway.paymentEvent, Prod.mk.injEq] at hstep
    obtain ⟨rfl, rfl⟩ := hstep
    exact ⟨grants, h.sound.bootProbe hcodec reads writes now, h.within, h.covered⟩
  | restart =>
    simp only [PaymentGateway.paymentEvent, Prod.mk.injEq] at hstep
    obtain ⟨rfl, rfl⟩ := hstep
    refine ⟨grants, h.sound.restart, h.within, fun scope day => ?_⟩
    have hcovered := h.covered scope day
    simp only [PaymentStep.signedOn, pendingOn, List.map_nil, List.sum_nil]
    omega

theorem spend_of_admitted (env : Env) (s : PaymentState)
    (hcap : gateway.limits.x402PeriodCap = some cap) {customer token : String}
    {req : SignX402Request} {payment : Payment}
    (hpayment : gateway.admitPayment customer token req = .ok payment) (now : Nat)
    (reads writes : Bool) :
    let checked := gateway.limits.checkAndCountX402Spend gateway.sha256 gateway.spendCodec reads
      writes payment.scope payment.value now s.spend
    let done := gateway.paymentEvent env (.request customer token req now reads writes) s
    done.1 = .gated checked.1 ∧ done.2.spend = checked.2 := by
  have hgate : gateway.x402SpendGate reads writes payment now s.spend =
      gateway.limits.checkAndCountX402Spend gateway.sha256 gateway.spendCodec reads writes
        payment.scope payment.value now s.spend := by
    simp [PaymentGateway.x402SpendGate, hcap]
  simp only [PaymentGateway.paymentEvent, hpayment, hgate]
  split <;> exact ⟨rfl, rfl⟩

variable {step : PaymentStep}
  (hstep : gateway.paymentEvent env step.input step.before = (step.output, step.after))

include hdry hcap hstep in
theorem chargesExactly_of_event : step.ChargesExactly gateway := by
  intro customer token req now reads writes payment found hinput hnow hpayment hfound
  have hspend := (spend_of_admitted env step.before hcap hpayment now reads writes).2
  rw [← hinput, hstep] at hspend
  dsimp only at hspend
  rw [hspend]
  rcases Limits.checkAndCountX402Spend_cases hdry hcap gateway.sha256 gateway.spendCodec reads
    writes payment.scope payment.value now step.before.spend with
    ⟨-, hzero | hnone⟩ | ⟨s, hresolve, -, ⟨-, hstore⟩ | ⟨⟨hfits, -⟩, -, hstore⟩⟩
  · exact absurd hzero hnow
  · rw [hfound] at hnone
    cases hnone
  · obtain rfl := Option.mem_unique hfound hresolve
    rw [hstore]
    exact .inl rfl
  · obtain rfl := Option.mem_unique hfound hresolve
    rw [hstore]
    refine .inr ⟨rfl, ?_⟩
    rw [BitVec.toNat_add]
    exact Nat.mod_eq_of_lt hfits

include hdry hcap hstep in
theorem deniesUncharged_of_event : step.DeniesUncharged gateway := by
  intro customer token req now reads writes retry hinput houtput
  cases hpayment : gateway.admitPayment customer token req with
  | error code =>
    rw [hinput, houtput] at hstep
    simp [PaymentGateway.paymentEvent, hpayment] at hstep
  | ok payment =>
    have hdone := spend_of_admitted env step.before hcap hpayment now reads writes
    rw [← hinput, hstep] at hdone
    obtain ⟨hdecision, hspend⟩ := hdone
    dsimp only at hdecision hspend
    rw [houtput] at hdecision
    have hdenied := PaymentOutput.gated.inj hdecision
    rw [hspend]
    rcases Limits.checkAndCountX402Spend_cases hdry hcap gateway.sha256 gateway.spendCodec reads
      writes payment.scope payment.value now step.before.spend with
      ⟨hchecked, -⟩ | ⟨s, hresolve, -, ⟨-, hstore⟩ | ⟨-, hallow, -⟩⟩
    · rw [hchecked] at hdenied
      cases hdenied
    · exact ⟨s, hresolve, hstore⟩
    · rw [← hdenied] at hallow
      split at hallow <;> cases hallow

include hstep in
theorem forward_of_answer {i : Nat} {trip : RoundTrip} {reply : PaymentReply}
    {exchange : Option (SignRequest × Served)}
    (hinput : step.input = .answer i trip) (houtput : step.output = .answered reply exchange) :
    ∃ charged, step.before.inFlight[i]? = some charged ∧
      gateway.forward env charged.toPayment trip = (reply, exchange) := by
  rw [hinput, houtput] at hstep
  cases hcharged : step.before.inFlight[i]? with
  | none => simp [PaymentGateway.paymentEvent, hcharged] at hstep
  | some charged =>
    simp only [PaymentGateway.paymentEvent, hcharged, Prod.mk.injEq,
      PaymentOutput.answered.injEq] at hstep
    exact ⟨charged, rfl, Prod.ext hstep.1.1 hstep.1.2⟩

include hreads hstep in
theorem returnsTransfer_of_event : step.ReturnsTransfer env := by
  intro i trip signature sender exchange hinput houtput
  obtain ⟨charged, hcharged, hforward⟩ := forward_of_answer hstep hinput houtput
  obtain ⟨req, served, transfer, key, rfl, htransfer, hsigned, htransfers, -⟩ :=
    PaymentGateway.forward_ok hreads hforward
  have hword : parseU256BeDecimal charged.x402.value = some (beBytes 32 transfer.value) := by
    rw [parseU256BeDecimal_eq, value_of_transferOf htransfer, Option.map_some]
  exact ⟨charged, req, served, transfer, key, hcharged, rfl, htransfer, hword, htransfers, hsigned⟩

include hreads hstep in
theorem forwardsVerbatim_of_event : step.ForwardsVerbatim := by
  intro i trip reply req served hinput houtput
  obtain ⟨charged, hcharged, hforward⟩ := forward_of_answer hstep hinput houtput
  obtain ⟨⟨creds, rfl⟩, -, -⟩ := PaymentGateway.forward_served hreads hforward
  exact ⟨charged, hcharged, rfl⟩

end

/-- Whatever totals the gateway starts from and whatever happens, the amounts in the signatures
that are returned for charges of one day to one payer are within the cap. A returned signature is
one of the transfer that the client described, the enclave reads the payment as it was sent, a sum
is never wrapped, and a denial for the cap charges nothing. -/
theorem PaymentGateway.x402_spend_within_cap (gateway : PaymentGateway) (env : Env)
    (hreads : gateway.ReadsBack env) (hcodec : gateway.spendCodec.RoundTrip)
    (hdry : gateway.limits.dryRun = false) (cap : BitVec 128)
    (hcap : gateway.limits.x402PeriodCap = some cap) (spend : DayStore (BitVec 128))
    (events : List PaymentEvent) :
    let steps := Run.steps (gateway.paymentEvent env) { spend } events
    (∀ scope day, (steps.map (PaymentStep.signedOn scope day)).sum ≤ cap.toNat) ∧
      ∀ step ∈ steps, PaymentStep.ReturnsTransfer env step ∧ PaymentStep.ForwardsVerbatim step ∧
        PaymentStep.ChargesExactly gateway step ∧ PaymentStep.DeniesUncharged gateway step := by
  intro steps
  constructor
  · have hstart : SpendSound gateway cap [] (fun _ _ => 0) { spend } :=
      ⟨.nil spend, fun _ _ => Nat.zero_le _, fun _ _ => Nat.zero_le _⟩
    obtain ⟨last, grants, hsound⟩ := Run.exists_history
      (H := fun before s => ∃ grants, SpendSound gateway cap grants
        (fun scope day => (before.map (PaymentStep.signedOn scope day)).sum) s) ⟨[], hstart⟩
      fun before step hstep ⟨grants, h⟩ => by
        simpa only [List.map_append, List.sum_append, List.map_cons, List.map_nil,
          List.sum_singleton] using h.event hdry hcap hcodec hreads (Run.mem_steps hstep).2
    intro scope day
    exact Nat.le_trans (Nat.le_of_add_right_le (hsound.covered scope day))
      (hsound.within scope day)
  · intro step hstep
    have hmachine := (Run.mem_steps hstep).2
    exact ⟨returnsTransfer_of_event hreads hmachine, forwardsVerbatim_of_event hreads hmachine,
      chargesExactly_of_event hdry hcap hmachine, deniesUncharged_of_event hdry hcap hmachine⟩

/-! ### Sample payments -/

namespace Sample

open Signer.Sample (Answers traderWallet)

def paymentOf (value : String) : X402Request where
  tokenName := "USD Coin"
  tokenVersion := "2"
  chainId := 8453
  tokenAddress := "0x833589fcd6edb6e08f4c7c32d4f71b54bda02913"
  sender := traderWallet
  recipient := "0x19e7e376e7c213b7e7e7e46cc70a5dd086daff2a"
  value := value
  validAfter := 0
  validBefore := 1800000000
  nonce := "0x0101010101010101010101010101010101010101010101010101010101010101"

def payerPolicy : Policy where
  x402 := some { chainId := some 8453
                 tokenAddress := some "0x833589fcd6edb6e08f4c7c32d4f71b54bda02913"
                 maxValue := some "10"
                 allowedRecipients := some ["0x19e7e376e7c213b7e7e7e46cc70a5dd086daff2a"] }

def payerPolicyText : String :=
  "\x7b\"x402\":\x7b\"chain_id\":8453,\"token_address\":" ++
    "\"0x833589fcd6edb6e08f4c7c32d4f71b54bda02913\",\"max_value\":\"10\"," ++
    "\"allowed_recipients\":[\"0x19e7e376e7c213b7e7e7e46cc70a5dd086daff2a\"]\x7d\x7d"

def payerBlob : Answers :=
  { Signer.Sample.traderAnswers payerPolicy payerPolicyText "signer_address" with
    frame := Signer.Sample.requestFrame .signX402Eip3009
      ("\"key_blob_s3_key\":\"secrets/payer.enc\",\"x402\":\x7b\"token_name\":\"USD Coin\"," ++
        "\"token_version\":\"2\",\"chain_id\":8453," ++
        "\"token_address\":\"0x833589fcd6edb6e08f4c7c32d4f71b54bda02913\",\"from\":\"" ++
        traderWallet ++ "\",\"to\":\"0x19e7e376e7c213b7e7e7e46cc70a5dd086daff2a\"," ++
        "\"value\":\"5\",\"valid_after\":0,\"valid_before\":1800000000,\"nonce\":" ++
        "\"0x0101010101010101010101010101010101010101010101010101010101010101\"\x7d")
    request := some { Signer.Sample.request .signX402Eip3009 with x402 := some (paymentOf "5") } }

def fiveSpent : DayState (BitVec 128) :=
  (DayState.start 19675).set "675992359924c88429231f9cb8d537192e944f96438cd12e808b6d5260cb0f20" 5

def payerGateway : PaymentGateway where
  limits := { Limits.disabled with
    x402PeriodCap := some 10
    x402SpendPath := some "/var/lib/signer-gateway/x402-spend.json"
    x402SpendPath_isSome := by decide }
  blobs scope := if scope = "acme/payer" then some [98, 108, 111, 98] else none
  sha256 _ := beBytes 32 0x675992359924c88429231f9cb8d537192e944f96438cd12e808b6d5260cb0f20
  spendCodec := .ofTable [(fiveSpent, bytes ("\x7b\"day\":19675,\"spend\":\x7b" ++
    "\"675992359924c88429231f9cb8d537192e944f96438cd12e808b6d5260cb0f20\":5\x7d\x7d"))]
  base64Encode _ := "YmxvYg=="
  requestToVec req :=
    let sent := Signer.Sample.request .signX402Eip3009
    if req.opaqueToken = sent.opaqueToken ∧ req.timestampMs = sent.timestampMs ∧
        req.awsCredentials = sent.awsCredentials ∧ req.x402 = some (paymentOf "5") then
      some (bytes payerBlob.frame)
    else none

theorem readsBack_payerGateway : payerGateway.ReadsBack (Signer.Sample.env payerBlob) := by
  intro payment creds nowMs body hbody
  simp only [payerGateway, PaymentGateway.vsockRequest, Option.ite_none_right_eq_some,
    Option.some.injEq] at hbody
  obtain ⟨⟨htoken, htime, hcreds, hx402⟩, rfl⟩ := hbody
  have hframe : ∀ a : Answers,
      (Signer.Sample.env a).requestFromSlice (bytes a.frame) = a.request :=
    fun a => if_pos rfl
  rw [hframe]
  simp only [PaymentGateway.vsockRequest, htoken, htime, hcreds, hx402]
  rfl

def roundTrip : RoundTrip where
  creds := some { accessKeyId := "id", secretAccessKey := "key", sessionToken := "token" }
  nowMs := 1700000000000
  backoffAllows := true
  sent := true
  received := true
  amb := {}
  enclave := Signer.Sample.enclave ["x402"] .active

def payments : List PaymentEvent :=
  [.request "acme" "sample-token" ⟨"payer", paymentOf "5"⟩ 1700000000 true true,
    .answer 0 roundTrip, .restart,
    .request "acme" "sample-token" ⟨"payer", paymentOf "6"⟩ 1700000001 true true]

end Sample

/-- Of a cap of ten, five are signed for; a payment of six is then denied. -/
theorem PaymentGateway.x402_spend_within_cap_sample :
    let steps := Run.steps (Sample.payerGateway.paymentEvent (Signer.Sample.env Sample.payerBlob))
      { spend := {} } Sample.payments
    steps.map (PaymentStep.signedOn "acme/payer" 19675) = [0, 5, 0, 0] ∧
      (steps.map (PaymentStep.signedOn "acme/payer" 19675)).sum ≤ 10 :=
  ⟨by decide +kernel,
    (PaymentGateway.x402_spend_within_cap Sample.payerGateway _ Sample.readsBack_payerGateway
      (AtomicFile.Codec.ofTable_roundTrip (List.nodup_singleton _)) rfl 10 rfl {}
      Sample.payments).1 "acme/payer" 19675⟩

end Signer.Gateway
