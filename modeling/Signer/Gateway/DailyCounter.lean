import Signer.Gateway.DayTotals
import Signer.Service.Run

/-!
# The daily order counter over time

Calls of any tokens take the lock in any order, with any clock; the disk takes a write or not; the
process ends at any point and starts again with the file it finds.
-/

namespace Signer.Gateway

open PeriodLedger (Grant granted)

inductive CounterEvent where
  | call (token : String) (now : Nat) (reads writes : Bool)
  | bootProbe (now : Nat) (reads writes : Bool)
  | restart

namespace Limits

def counterEvent (limits : Limits) (sha256 : Bytes → Bytes)
    (codec : AtomicFile.Codec (DayState UInt64)) (event : CounterEvent) (store : DayStore UInt64) :
    Option LimitDecision × DayStore UInt64 :=
  match event with
  | .call token now reads writes =>
    let checked := limits.checkAndCountOrder sha256 codec reads writes token now store
    (some checked.1, checked.2)
  | .bootProbe now reads writes => (none, (store.bootProbe codec reads writes now).2)
  | .restart => (none, store.restart)

section

variable {limits : Limits} {cap : UInt64}

theorem checkAndCountOrder_cases (hdry : limits.dryRun = false) (hcap : limits.dailyCap = some cap)
    (sha256 : Bytes → Bytes) (codec : AtomicFile.Codec (DayState UInt64)) (reads writes : Bool)
    (token : String) (now : Nat) (store : DayStore UInt64) :
    let checked := limits.checkAndCountOrder sha256 codec reads writes token now store
    (checked.1 ≠ .allow ∧ checked.2 = store) ∨
      ∃ s, store.resolve codec reads (today now) = some s ∧
        ((checked.1 ≠ .allow ∧ checked.2 = { store with
            cache := some (s.set (keyHex sha256 token) (s.total (keyHex sha256 token))) }) ∨
          (s.total (keyHex sha256 token) < cap ∧
            let written := store.writeThrough codec writes
              (s.set (keyHex sha256 token) (s.total (keyHex sha256 token) + 1))
            (checked.1 = .allow ↔ written.1 = true) ∧ checked.2 = written.2)) := by
  intro checked
  obtain ⟨path, hpath⟩ := Option.isSome_iff_exists.mp
    (limits.counterPath_isSome (by rw [hcap]; rfl))
  have hrefused : limits.unavailable ≠ .allow := by simp [unavailable, hdry]
  simp only [checked, checkAndCountOrder, hcap, hpath, hdry]
  by_cases hnow : now = 0
  · rw [if_pos hnow]
    exact .inl ⟨hrefused, rfl⟩
  rw [if_neg hnow]
  cases hresolve : store.resolve codec reads (today now) with
  | none => exact .inl ⟨hrefused, rfl⟩
  | some s =>
    refine .inr ⟨s, rfl, ?_⟩
    by_cases hfull : cap ≤ s.total (keyHex sha256 token)
    · left
      simp [hfull]
    · right
      refine ⟨UInt64.not_le.mp hfull, ?_⟩
      simp only [hfull, false_and, if_false, and_true]
      split <;> simp_all

theorem missingLimits_of_fromEnv {vars : LimitsVars} (h : fromEnv vars = .ok limits)
    (hstrict : envFlagEnabled vars.requireAuth = true) :
    missingLimits limits.dailyCap limits.ratePerMin limits.ordersPerMin limits.cancelsPerMin
      limits.dryRun = [] := by
  simp only [fromEnv, bind_eq_ok] at h
  obtain ⟨dailyCap, -, ratePerMin, -, ordersPerMin, -, cancelsPerMin, -, x402PeriodCap, -, h⟩ := h
  split at h
  case isFalse => cases h
  split at h
  case isFalse => cases h
  split at h
  · cases h
  split at h
  · cases h
  rename_i hcomplete
  cases h
  exact not_not.mp fun hmissing => hcomplete ⟨hstrict, hmissing⟩

/-- An order is allowed only if the total of its day was read, is below the cap, and is on disk
with the order in it. -/
def CountsOrders (limits : Limits) (cap : UInt64) : Prop :=
  ∀ sha256 codec reads writes token now store store',
    limits.checkAndCountOrder sha256 codec reads writes token now store = (.allow, store') →
    ∃ s, store.resolve codec reads (today now) = some s ∧ s.total (keyHex sha256 token) < cap ∧
      store.writeThrough codec writes
        (s.set (keyHex sha256 token) (s.total (keyHex sha256 token) + 1)) = (true, store')

/-- The strict profile starts with a rate control and a daily cap, and fails closed on the cap. -/
theorem strict_profile_counts_orders {vars : LimitsVars} (h : fromEnv vars = .ok limits)
    (hstrict : envFlagEnabled vars.requireAuth = true) :
    (limits.ratePerMin.isSome ∨ limits.ordersPerMin.isSome ∧ limits.cancelsPerMin.isSome) ∧
      ∃ cap, limits.dailyCap = some cap ∧ limits.CountsOrders cap := by
  have hmissing := missingLimits_of_fromEnv h hstrict
  simp only [missingLimits, List.append_eq_nil_iff, ite_eq_right_iff, ite_eq_left_iff,
    List.cons_ne_nil, imp_false, not_not, Bool.or_eq_true, Bool.and_eq_true] at hmissing
  obtain ⟨⟨hcap, hrate⟩, hdry⟩ := hmissing
  obtain ⟨cap, hcap⟩ := Option.ne_none_iff_exists'.mp (mt Option.isNone_iff_eq_none.mpr hcap)
  refine ⟨hrate, cap, hcap, ?_⟩
  intro sha256 codec reads writes token now store store' hallow
  have hcases := checkAndCountOrder_cases (Bool.eq_false_iff.mpr hdry) hcap sha256 codec reads
    writes token now store
  rw [hallow] at hcases
  simp only [ne_eq, not_true, false_and, false_or, true_iff] at hcases
  obtain ⟨s, hresolve, hbelow, hwritten, rfl⟩ := hcases
  exact ⟨s, hresolve, hbelow, Prod.ext hwritten rfl⟩

def Sample.strictVars : LimitsVars where
  dailyCap := some "1"
  counterPath := some "/var/lib/signer-gateway/daily-counters.json"
  rateLimit := some "60"
  requireAuth := some "1"

theorem strict_profile_counts_orders_starts :
    ∃ limits cap, fromEnv Sample.strictVars = .ok limits ∧
      limits.dailyCap = some cap ∧ limits.CountsOrders cap := by
  have hstarts : fromEnv Sample.strictVars = .ok _ := rfl
  exact ⟨_, _, hstarts, (strict_profile_counts_orders hstarts (by decide)).2.choose_spec⟩

end

end Limits

/-! ### The orders of a run -/

abbrev CounterStep := Run.Step CounterEvent (DayStore UInt64) (Option LimitDecision)

namespace CounterStep

def allowedOn (token : String) (day : Nat) (step : CounterStep) : Bool :=
  match step.input with
  | .call who now _ _ => who = token ∧ today now = day ∧ step.output = some .allow
  | _ => false

def grant (step : CounterStep) : Option (Grant String) :=
  match step.input with
  | .call token now _ _ =>
    if step.output = some .allow then some ⟨token, today now, 1⟩ else none
  | _ => none

end CounterStep

theorem granted_eq_length_allowedOn (token : String) (day : Nat) (steps : List CounterStep) :
    granted (steps.filterMap CounterStep.grant) token day =
      (steps.filter (CounterStep.allowedOn token day)).length := by
  refine PeriodLedger.granted_filterMap_eq_length ?_ ?_ steps
  · intro step grant hgrant
    unfold CounterStep.grant at hgrant
    unfold CounterStep.allowedOn
    split at hgrant
    · simp only [Option.ite_none_right_eq_some, Option.some.injEq] at hgrant
      obtain ⟨hallowed, rfl⟩ := hgrant
      simp [hallowed]
    · cases hgrant
  · intro step hnone
    unfold CounterStep.grant at hnone
    unfold CounterStep.allowedOn
    split at hnone
    · simp only [ite_eq_right_iff, reduceCtorEq, imp_false] at hnone
      simp [hnone]
    · rfl

/-- The store covers the grants, each token within the cap. -/
structure CounterSound (sha256 : Bytes → Bytes) (codec : AtomicFile.Codec (DayState UInt64))
    (cap : UInt64) (grants : List (Grant String)) (store : DayStore UInt64) : Prop where
  sound : store.Sound UInt64.toNat (keyHex sha256) codec grants
  within : ∀ token day, granted grants token day ≤ cap.toNat

section

variable {limits : Limits} {sha256 : Bytes → Bytes} {codec : AtomicFile.Codec (DayState UInt64)}
  {cap : UInt64} {grants : List (Grant String)} {store : DayStore UInt64}

theorem CounterSound.call (hdry : limits.dryRun = false) (hcap : limits.dailyCap = some cap)
    (hcodec : codec.RoundTrip) (h : CounterSound sha256 codec cap grants store)
    (reads writes : Bool) (token : String) (now : Nat) :
    let checked := limits.checkAndCountOrder sha256 codec reads writes token now store
    CounterSound sha256 codec cap
      (if checked.1 = .allow then grants ++ [⟨token, today now, 1⟩] else grants) checked.2 := by
  intro checked
  rcases Limits.checkAndCountOrder_cases hdry hcap sha256 codec reads writes token now store with
    ⟨hrefused, hstore⟩ | ⟨s, hresolve, ⟨hrefused, hstore⟩ | ⟨hbelow, hallow, hstore⟩⟩
  · rw [if_neg hrefused, hstore]
    exact h
  · obtain ⟨hcovers, -⟩ := h.sound.resolve hresolve
    rw [if_neg hrefused, hstore]
    exact ⟨h.sound.keep (hcovers.set (Nat.le_refl _)), h.within⟩
  · obtain ⟨hcovers, hday⟩ := h.sound.resolve hresolve
    have hlt := UInt64.lt_iff_toNat_lt.mp hbelow
    have hnext : (s.total (keyHex sha256 token) + 1).toNat =
        (s.total (keyHex sha256 token)).toNat + 1 := by
      have hcapLt := cap.toNat_lt
      rw [UInt64.toNat_add]
      exact Nat.mod_eq_of_lt (by simp only [UInt64.toNat_one]; omega)
    rw [hstore]
    cases hwritten : (store.writeThrough codec writes (s.set (keyHex sha256 token)
        (s.total (keyHex sha256 token) + 1))).1 with
    | false =>
      rw [if_neg fun hallowed => by simp [hallow.mp hallowed] at hwritten]
      exact ⟨h.sound.unwritten (hcovers.set (by omega)) hwritten, h.within⟩
    | true =>
      rw [if_pos (hallow.mpr hwritten)]
      have hmore : (s.set (keyHex sha256 token) (s.total (keyHex sha256 token) + 1)).Covers
          UInt64.toNat (keyHex sha256) (grants ++ [⟨token, today now, 1⟩]) :=
        hcovers.set_append hday.symm hnext.ge
      refine ⟨.written hcodec hmore hwritten, fun other day => ?_⟩
      have hkey := hcovers token
      rw [hday] at hkey
      exact PeriodLedger.granted_append_le h.within hkey (by dsimp only; omega) other day

theorem CounterSound.event (hdry : limits.dryRun = false) (hcap : limits.dailyCap = some cap)
    (hcodec : codec.RoundTrip) {step : CounterStep}
    (h : CounterSound sha256 codec cap grants step.before)
    (hstep : limits.counterEvent sha256 codec step.input step.before = (step.output, step.after)) :
    CounterSound sha256 codec cap (grants ++ step.grant.toList) step.after := by
  obtain ⟨input, before, output, after⟩ := step
  cases input with
  | call token now reads writes =>
    dsimp only at h hstep
    cases hstep
    have hcall := h.call hdry hcap hcodec reads writes token now
    dsimp only at hcall ⊢
    split at hcall
    · rename_i hallowed
      simpa [CounterStep.grant, hallowed] using hcall
    · rename_i hrefused
      simpa [CounterStep.grant, hrefused] using hcall
  | bootProbe now reads writes =>
    dsimp only at h hstep
    cases hstep
    simpa [CounterStep.grant] using
      (⟨h.sound.bootProbe hcodec reads writes now, h.within⟩ : CounterSound ..)
  | restart =>
    dsimp only at h hstep
    cases hstep
    simpa [CounterStep.grant] using (⟨h.sound.restart, h.within⟩ : CounterSound ..)

end

/-- Whatever file the counter starts from and whatever happens to it, no token is allowed more
orders in a day than the cap. -/
theorem Limits.daily_orders_within_cap (limits : Limits) (sha256 : Bytes → Bytes)
    (codec : AtomicFile.Codec (DayState UInt64)) (hcodec : codec.RoundTrip)
    (hdry : limits.dryRun = false) (cap : UInt64) (hcap : limits.dailyCap = some cap)
    (store : DayStore UInt64) (events : List CounterEvent) (token : String) (day : Nat) :
    ((Run.steps (limits.counterEvent sha256 codec) store events).filter
      (CounterStep.allowedOn token day)).length ≤ cap.toNat := by
  have hstart : CounterSound sha256 codec cap [] store := ⟨.nil store, fun _ _ => Nat.zero_le _⟩
  obtain ⟨last, hsound⟩ := Run.exists_history
    (H := fun before store =>
      CounterSound sha256 codec cap (before.filterMap CounterStep.grant) store) hstart
    fun before step hstep h => by
      rw [PeriodLedger.filterMap_concat]
      exact h.event hdry hcap hcodec (Run.mem_steps hstep).2
  rw [← granted_eq_length_allowedOn]
  exact hsound.within token day

/-! ### A sample day -/

namespace Sample

def oneADay : Limits where
  __ := Limits.disabled
  dailyCap := some 1
  counterPath := some "/var/lib/signer-gateway/daily-counters.json"
  counterPath_isSome := by decide

def orderCounted : DayState UInt64 :=
  (DayState.start 19675).set "0f35d0ae14518b96bd6d3fec3ca15801fd58c9e048b1ccdea11a71378f2acdc9" 1

def counterCodec : AtomicFile.Codec (DayState UInt64) := .ofTable [(orderCounted, Text.bytes
  ("\x7b\"day\":19675,\"counts\":\x7b" ++
    "\"0f35d0ae14518b96bd6d3fec3ca15801fd58c9e048b1ccdea11a71378f2acdc9\":1\x7d\x7d"))]

def ordersOfADay : List CounterEvent :=
  [.call "sample-token" 1700000000 true true, .restart, .call "sample-token" 1700000001 true true]

end Sample

/-- The first order is allowed; the process that starts after it refuses the second. -/
theorem Limits.daily_orders_within_cap_crash :
    (Run.steps (Sample.oneADay.counterEvent Sample.sha256 Sample.counterCodec) {}
        Sample.ordersOfADay).map Run.Step.output =
      [some .allow, none, some (.dailyCapExhausted 6399)] ∧
    ((Run.steps (Sample.oneADay.counterEvent Sample.sha256 Sample.counterCodec) {}
        Sample.ordersOfADay).filter (CounterStep.allowedOn "sample-token" 19675)).length ≤ 1 :=
  ⟨by decide +kernel, Limits.daily_orders_within_cap Sample.oneADay _ Sample.counterCodec
      (AtomicFile.Codec.ofTable_roundTrip (List.nodup_singleton _)) rfl 1 rfl {}
      Sample.ordersOfADay "sample-token" 19675⟩

end Signer.Gateway
