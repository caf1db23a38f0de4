import Signer.Gateway.Limits
import Signer.Service.PeriodLedger
import Signer.Service.Run

/-!
# The minute buckets over time

Calls read the clock and then wait for the lock, so a bucket may see them in another order than
their clock readings. A call of an earlier minute that comes late puts the window back, and the
count of the minute starts again.
-/

namespace Signer.Gateway

open PeriodLedger (Grant Covers granted)

inductive RateBucket where
  | blanket
  | orders
  | cancels
  deriving DecidableEq, Repr

structure RateCall where
  bucket : RateBucket
  token : String
  now : Nat
  deriving DecidableEq, Repr

def RateState.windows (s : RateState) : RateBucket → RateWindows
  | .blanket => s.rate
  | .orders => s.ordersRate
  | .cancels => s.cancelsRate

namespace Limits

def bucketCap (limits : Limits) : RateBucket → Option UInt32
  | .blanket => limits.ratePerMin
  | .orders => limits.ordersPerMin
  | .cancels => limits.cancelsPerMin

def takeCall (limits : Limits) (sha256 : Bytes → Bytes) (call : RateCall) (s : RateState) :
    LimitDecision × RateState :=
  match call.bucket with
  | .blanket => limits.checkRate sha256 call.token call.now s
  | .orders => limits.checkOrdersRate sha256 call.token call.now s
  | .cancels => limits.checkCancelsRate sha256 call.token call.now s

end Limits

abbrev RateStep := Run.Step RateCall RateState LimitDecision

def RateStep.allowedIn (bucket : RateBucket) (token : String) (minute : Nat) (step : RateStep) :
    Bool :=
  step.input.bucket = bucket ∧ step.output = .allow ∧ step.input.token = token ∧
    Limits.window step.input.now = minute

/-- The window of the token is not put back. -/
def RateCall.InClockOrder (sha256 : Bytes → Bytes) (call : RateCall) (s : RateState) : Prop :=
  ∀ entry ∈ (s.windows call.bucket).lookup (tokenKey sha256 call.token),
    entry.1 ≤ Limits.window call.now

/-! ### One call -/

def RateWindows.countIn (windows : RateWindows) (key : Bytes) (minute : Nat) : UInt32 :=
  match windows.lookup key with
  | some (window, count) => if window = minute then count else 0
  | none => 0

variable {s s' : RateState} {before : List RateStep}

section

variable {limits : Limits} {sha256 : Bytes → Bytes}

theorem Limits.unavailable_ne_allow (hdry : limits.dryRun = false) :
    limits.unavailable ≠ .allow := by
  simp [Limits.unavailable, hdry]

theorem Limits.checkBucket_cases (hdry : limits.dryRun = false) (sha256 : Bytes → Bytes)
    (cap : UInt32) (token : String) (now : Nat) (windows : RateWindows) :
    let checked := limits.checkBucket sha256 (some cap) token now windows
    let key := tokenKey sha256 token
    let count := windows.countIn key (window now)
    (checked.1 ≠ .allow ∧ checked.2 = windows) ∨
      (checked.1 ≠ .allow ∧ checked.2 = windows.insert key (window now, count)) ∨
      (checked.1 = .allow ∧ count < cap ∧
        checked.2 = windows.insert key (window now, count + 1)) := by
  intro checked key count
  by_cases hnow : now = 0
  · refine .inl ⟨?_, ?_⟩ <;> simp only [checked, Limits.checkBucket, hnow, if_true]
    exact Limits.unavailable_ne_allow hdry
  · have hentry : (let entry := (windows.lookup key).getD (window now, 0)
        if entry.1 ≠ window now then (window now, 0) else entry) = (window now, count) := by
      simp only [count, RateWindows.countIn]
      cases windows.lookup key with
      | none => simp
      | some entry =>
        by_cases hsame : entry.1 = window now
        · simp only [Option.getD_some, hsame, ne_eq, not_true_eq_false, if_false, if_true]
          rw [← hsame]
        · simp [hsame]
    dsimp only at hentry
    have hchecked : checked = if cap ≤ count then
          (.rateLimited (secsPerMinute - now % secsPerMinute),
            windows.insert key (window now, count))
        else (.allow, windows.insert key (window now, count + 1)) := by
      simp only [checked, Limits.checkBucket, if_neg hnow, hdry, Bool.false_eq_true, if_false]
      rw [hentry]
    right
    rw [hchecked]
    by_cases hcap : cap ≤ count
    · left
      rw [if_pos hcap]
      exact ⟨by simp, rfl⟩
    · right
      rw [if_neg hcap]
      exact ⟨rfl, UInt32.not_le.mp hcap, rfl⟩

theorem Limits.takeCall_eq {call : RateCall} {decision : LimitDecision}
    (h : limits.takeCall sha256 call s = (decision, s')) :
    limits.checkBucket sha256 (limits.bucketCap call.bucket) call.token call.now
        (s.windows call.bucket) = (decision, s'.windows call.bucket) ∧
      ∀ bucket, bucket ≠ call.bucket → s'.windows bucket = s.windows bucket := by
  obtain ⟨bucket, token, now⟩ := call
  cases bucket <;> obtain ⟨rfl, rfl⟩ := Prod.mk.inj h <;>
    refine ⟨rfl, fun bucket hne => ?_⟩ <;> cases bucket <;> first | rfl | exact absurd rfl hne

end

/-! ### The calls of a run -/

def RateStep.grant (bucket : RateBucket) (step : RateStep) : Option (Grant String) :=
  if step.input.bucket = bucket ∧ step.output = .allow then
    some ⟨step.input.token, Limits.window step.input.now, 1⟩
  else none

def Accounted (grants : List (Grant String)) (token : String) : Option (Nat × UInt32) → Prop
  | none => ∀ minute, granted grants token minute = 0
  | some (window, count) => Covers grants token window count.toNat

section

variable {sha256 : Bytes → Bytes} {windows : RateWindows} {grants : List (Grant String)}
  {token : String}

theorem Accounted.covers (minute : Nat)
    (h : Accounted grants token (windows.lookup (tokenKey sha256 token)))
    (horder : ∀ entry ∈ windows.lookup (tokenKey sha256 token), entry.1 ≤ minute) :
    Covers grants token minute (windows.countIn (tokenKey sha256 token) minute).toNat := by
  unfold RateWindows.countIn
  cases hentry : windows.lookup (tokenKey sha256 token) with
  | none =>
    rw [hentry] at h
    exact .of_granted_eq_zero h
  | some entry =>
    obtain ⟨window, count⟩ := entry
    rw [hentry] at h
    have hcovers : Covers grants token window count.toNat := h
    rcases Nat.lt_or_eq_of_le (horder (window, count) hentry) with hlt | rfl
    · exact hcovers.advance hlt
    · simpa using hcovers

end

section

variable {limits : Limits} {sha256 : Bytes → Bytes} {bucket : RateBucket} {cap : UInt32}
  {token : String} {grants : List (Grant String)} {step : RateStep}

structure RateSound (sha256 : Bytes → Bytes) (bucket : RateBucket) (cap : UInt32) (token : String)
    (before : List RateStep) (s : RateState) : Prop where
  accounted : Accounted (before.filterMap (RateStep.grant bucket)) token
    ((s.windows bucket).lookup (tokenKey sha256 token))
  within : ∀ minute, granted (before.filterMap (RateStep.grant bucket)) token minute ≤ cap.toNat

theorem RateStep.grant_of_ne (h : step.input.bucket ≠ bucket) : step.grant bucket = none := by
  simp [RateStep.grant, h]

theorem RateStep.grant_of_refused (h : step.output ≠ .allow) : step.grant bucket = none := by
  simp [RateStep.grant, h]

theorem RateStep.grant_of_allowed (hbucket : step.input.bucket = bucket)
    (h : step.output = .allow) :
    step.grant bucket = some ⟨step.input.token, Limits.window step.input.now, 1⟩ := by
  simp [RateStep.grant, hbucket, h]

theorem RateSound.of_quiet (h : RateSound sha256 bucket cap token before s)
    (hgrant : step.grant bucket = none)
    (hentry : (s'.windows bucket).lookup (tokenKey sha256 token) =
      (s.windows bucket).lookup (tokenKey sha256 token)) :
    RateSound sha256 bucket cap token (before ++ [step]) s' := by
  have hnone : (before ++ [step]).filterMap (RateStep.grant bucket) =
      before.filterMap (RateStep.grant bucket) := by
    simp [hgrant]
  constructor
  · rw [hnone, hentry]
    exact h.accounted
  · rw [hnone]
    exact h.within

theorem RateSound.other (h : RateSound sha256 bucket cap token before s) {grant : Grant String}
    (hgrant : step.grant bucket = some grant) (hne : grant.key ≠ token)
    (hentry : (s'.windows bucket).lookup (tokenKey sha256 token) =
      (s.windows bucket).lookup (tokenKey sha256 token)) :
    RateSound sha256 bucket cap token (before ++ [step]) s' := by
  have hgrants : (before ++ [step]).filterMap (RateStep.grant bucket) =
      before.filterMap (RateStep.grant bucket) ++ [grant] := by
    simp [hgrant]
  constructor
  · rw [hgrants, hentry]
    have haccounted := h.accounted
    cases hlookup : (s.windows bucket).lookup (tokenKey sha256 token) with
    | none =>
      rw [hlookup] at haccounted
      intro minute
      rw [PeriodLedger.granted_append_of_ne hne, haccounted minute]
    | some entry =>
      rw [hlookup] at haccounted
      exact Covers.append_of_ne haccounted hne
  · intro minute
    rw [hgrants, PeriodLedger.granted_append_of_ne hne]
    exact h.within minute

theorem RateSound.taken (hdry : limits.dryRun = false) (hcap : limits.bucketCap bucket = some cap)
    (h : RateSound sha256 bucket cap token before step.before)
    (hbucket : step.input.bucket = bucket)
    (hkey : tokenKey sha256 step.input.token = tokenKey sha256 token)
    (hchecked : limits.checkBucket sha256 (limits.bucketCap bucket) step.input.token step.input.now
      (step.before.windows bucket) = (step.output, step.after.windows bucket))
    (horder : step.input.InClockOrder sha256 step.before) :
    RateSound sha256 bucket cap token (before ++ [step]) step.after := by
  have hcovers := h.accounted.covers (Limits.window step.input.now) (by
    rw [RateCall.InClockOrder, hbucket, hkey] at horder
    exact horder)
  have hcases := Limits.checkBucket_cases hdry sha256 cap step.input.token
    step.input.now (step.before.windows bucket)
  rw [← hcap, hchecked, hkey] at hcases
  rcases hcases with ⟨hdenied, hsame⟩ | ⟨hdenied, hreset⟩ | ⟨hallowed, hlt, hcounted⟩
  · exact h.of_quiet (RateStep.grant_of_refused hdenied) (by dsimp only at hsame; rw [hsame])
  · have hnone : step.grant bucket = none := RateStep.grant_of_refused hdenied
    dsimp only at hreset
    refine ⟨?_, ?_⟩
    · rw [hreset, Finmap.lookup_insert, PeriodLedger.filterMap_concat]
      simpa [hnone, Accounted] using hcovers
    · intro minute
      simpa [PeriodLedger.filterMap_concat, hnone] using h.within minute
  · have hsome := RateStep.grant_of_allowed hbucket hallowed
    dsimp only at hcounted
    have hgrants : (before ++ [step]).filterMap (RateStep.grant bucket) =
        before.filterMap (RateStep.grant bucket) ++
          [⟨step.input.token, Limits.window step.input.now, 1⟩] := by
      simp [hsome]
    have hbelow := UInt32.lt_iff_toNat_lt.mp hlt
    have hnext : ((step.before.windows bucket).countIn (tokenKey sha256 token)
        (Limits.window step.input.now) + 1).toNat =
        ((step.before.windows bucket).countIn (tokenKey sha256 token)
          (Limits.window step.input.now)).toNat + 1 := by
      have hcapLt := cap.toNat_lt
      rw [UInt32.toNat_add]
      exact Nat.mod_eq_of_lt (by simp only [UInt32.toNat_one]; omega)
    refine ⟨?_, ?_⟩
    · rw [hgrants, hcounted, Finmap.lookup_insert]
      exact hcovers.append rfl (by omega) fun _ => by rw [hnext]
    · intro minute
      rw [hgrants, PeriodLedger.granted_append_singleton]
      have hbefore := h.within minute
      have htotal := hcovers.1
      split
      · rename_i hself
        obtain ⟨-, rfl⟩ := hself
        dsimp only
        omega
      · omega

theorem RateSound.of_step (hdry : limits.dryRun = false) (hcap : limits.bucketCap bucket = some cap)
    (h : RateSound sha256 bucket cap token before step.before)
    (htaken : limits.takeCall sha256 step.input step.before = (step.output, step.after))
    (horder : step.input.bucket = bucket →
      tokenKey sha256 step.input.token = tokenKey sha256 token →
      step.input.InClockOrder sha256 step.before) :
    RateSound sha256 bucket cap token (before ++ [step]) step.after := by
  obtain ⟨hchecked, hothers⟩ := Limits.takeCall_eq htaken
  by_cases hbucket : step.input.bucket = bucket
  · rw [hbucket] at hchecked
    by_cases hkey : tokenKey sha256 step.input.token = tokenKey sha256 token
    · exact h.taken hdry hcap hbucket hkey hchecked (horder hbucket hkey)
    · -- another key: the token's entry stays, and the grant is not the token's
      have hcases := Limits.checkBucket_cases hdry sha256 cap step.input.token step.input.now
        (step.before.windows bucket)
      rw [← hcap, hchecked] at hcases
      have hinsert : ∀ entry, ((step.before.windows bucket).insert
          (tokenKey sha256 step.input.token) entry).lookup (tokenKey sha256 token) =
          (step.before.windows bucket).lookup (tokenKey sha256 token) :=
        fun entry => Finmap.lookup_insert_of_ne _ (Ne.symm hkey)
      dsimp only at hcases
      rcases hcases with ⟨hdenied, hsame⟩ | ⟨hdenied, hreset⟩ | ⟨hallowed, -, hcounted⟩
      · exact h.of_quiet (RateStep.grant_of_refused hdenied) (by rw [hsame])
      · exact h.of_quiet (RateStep.grant_of_refused hdenied) (by rw [hreset, hinsert])
      · have hne : step.input.token ≠ token := fun heq => hkey (by rw [heq])
        exact h.other (RateStep.grant_of_allowed hbucket hallowed) hne (by rw [hcounted, hinsert])
  · exact h.of_quiet (RateStep.grant_of_ne hbucket) (by rw [hothers bucket (Ne.symm hbucket)])

theorem granted_eq_length_allowedIn (token : String) (minute : Nat) (steps : List RateStep) :
    granted (steps.filterMap (RateStep.grant bucket)) token minute =
      (steps.filter (RateStep.allowedIn bucket token minute)).length := by
  refine PeriodLedger.granted_filterMap_eq_length ?_ ?_ steps
  · intro step grant hgrant
    simp only [RateStep.grant, Option.ite_none_right_eq_some, Option.some.injEq] at hgrant
    obtain ⟨⟨hbucket, hallowed⟩, rfl⟩ := hgrant
    simp [RateStep.allowedIn, hbucket, hallowed]
  · intro step hnone
    simp only [RateStep.grant, ite_eq_right_iff, reduceCtorEq, imp_false] at hnone
    simp only [RateStep.allowedIn, decide_eq_false_iff_not]
    exact fun h => hnone ⟨h.1, h.2.1⟩

end

/-- Unless a bucket is put back to a minute before the one it last saw a token in, no minute sees
more calls of the token allowed than the cap of the bucket. -/
theorem Limits.bucket_within_cap (limits : Limits) (sha256 : Bytes → Bytes)
    (hdry : limits.dryRun = false) (bucket : RateBucket) (cap : UInt32)
    (hcap : limits.bucketCap bucket = some cap) (calls : List RateCall) (token : String)
    (horder : ∀ step ∈ Run.steps (limits.takeCall sha256) {} calls, step.input.bucket = bucket →
      tokenKey sha256 step.input.token = tokenKey sha256 token →
      step.input.InClockOrder sha256 step.before)
    (minute : Nat) :
    ((Run.steps (limits.takeCall sha256) {} calls).filter
      (RateStep.allowedIn bucket token minute)).length ≤ cap.toNat := by
  have hstart : RateSound sha256 bucket cap token [] {} := by
    constructor
    · cases bucket <;> exact fun _ => rfl
    · exact fun _ => Nat.zero_le _
  obtain ⟨last, hsound⟩ := Run.exists_history hstart fun before step hstep h =>
    h.of_step hdry hcap (Run.mem_steps hstep).2 (horder step hstep)
  rw [← granted_eq_length_allowedIn]
  exact hsound.within minute

/-! ### A sample bucket -/

namespace Sample

def oneAMinute : Limits := { Limits.disabled with ratePerMin := some 1 }

def callsAt (times : List Nat) : List RateCall :=
  times.map fun now => ⟨.blanket, "sample-token", now⟩

end Sample

/-- Two requests of one minute, and one of the next, in clock order: the second is refused. -/
theorem Limits.bucket_within_cap_sample :
    ((Run.steps (Sample.oneAMinute.takeCall Sample.sha256) {}
      (Sample.callsAt [119, 119, 120])).filter
        (RateStep.allowedIn .blanket "sample-token" 1)).length ≤ 1 :=
  Limits.bucket_within_cap Sample.oneAMinute Sample.sha256 rfl .blanket 1 rfl
    (Sample.callsAt [119, 119, 120]) "sample-token" (by
      unfold RateCall.InClockOrder
      decide +kernel) 1

/-- A request that read the clock in minute one, but takes the lock after one of minute two, lets
a second request of minute two through. -/
theorem late_call_refills_bucket :
    1 < ((Run.steps (Sample.oneAMinute.takeCall Sample.sha256) {}
      (Sample.callsAt [120, 119, 121])).filter
        (RateStep.allowedIn .blanket "sample-token" 2)).length := by
  decide +kernel

end Signer.Gateway
