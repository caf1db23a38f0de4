import Signer.LimiterRuns
import Signer.Service.Interleaving
import Signer.Service.TokenBucket

/-!
# The rate bound under concurrency

A call of `check` reads the clock and then takes the lock. Between the two, time passes and other
calls are decided, so the readings need not reach the buckets in the order of time. The bound of a
token bucket holds as long as a bucket is credited with no more time than has passed between the
decisions on it.
-/

namespace Signer

/-- The limiter, and the time that really is. -/
structure TimedLimiter where
  clock : Nat := 0
  limiter : RateLimiter := {}

inductive LimiterProcess where
  | check (key : String)
  | tick (nanos : Nat)

inductive CheckProgress where
  | start
  | read (now : Nat)
  | finished

/-- A decision: its clock reading, its time, and what is left. -/
structure CheckResult where
  key : String
  reading : Nat
  time : Nat
  allowed : Bool
  left : ℚ
  deriving DecidableEq

/-- What `check` decides once it has the lock. -/
def decision (capacity rate now : Nat) (key : String) (s : TimedLimiter) : CheckResult :=
  let checked := s.limiter.check capacity rate now key
  { key
    reading := now
    time := s.clock
    allowed := checked.1
    left := (checked.2.buckets.lookup key).elim 0 Bucket.tokens }

/-- The next section of a process: `check` reads the clock before it takes the lock. -/
def checkSection (capacity rate : Nat) :
    LimiterProcess → CheckProgress → TimedLimiter →
      Option CheckResult × CheckProgress × TimedLimiter
  | .tick nanos, progress, s => (none, progress, { s with clock := s.clock + nanos })
  | .check _, .start, s => (none, .read s.clock, s)
  | .check key, .read now, s =>
    (some (decision capacity rate now key s), .finished,
      { s with limiter := (s.limiter.check capacity rate now key).2 })
  | .check _, .finished, s => (none, .finished, s)

abbrev CheckSystem := Interleaving.System TimedLimiter CheckProgress

abbrev CheckStep := Run.Step ℕ CheckSystem (Option CheckResult)

def checkSteps (capacity rate : Nat) (processes : ℕ → LimiterProcess) (schedule : List ℕ) :
    List CheckStep :=
  Run.steps (Interleaving.step fun i => checkSection capacity rate (processes i))
    { shared := {}, progress := fun _ => .start } schedule

def resultOn (key : String) (step : CheckStep) : Option CheckResult :=
  step.output.filter (·.key = key)

def resultsOn (key : String) (steps : List CheckStep) : List CheckResult :=
  steps.filterMap (resultOn key)

/-- Between two decisions the readings advance by no more than time does. -/
def Steady (a b : CheckResult) : Prop := b.reading + a.time ≤ a.reading + b.time

section

variable {capacity rate now : Nat} {processes : ℕ → LimiterProcess} {schedule : List ℕ}
  {key : String}
  {process : LimiterProcess} {progress progress' : CheckProgress} {s s' : TimedLimiter}
  {output : Option CheckResult} {steps : List CheckStep}

theorem checkSection_cases (h : checkSection capacity rate process progress s =
    (output, progress', s')) :
    (output = none ∧ s'.limiter = s.limiter ∧ s.clock ≤ s'.clock) ∨
      ∃ k now, s' = { s with limiter := (s.limiter.check capacity rate now k).2 } ∧
        output = some (decision capacity rate now k s) := by
  unfold checkSection at h
  split at h <;> cases h
  · exact .inl ⟨rfl, rfl, Nat.le_add_right _ _⟩
  · exact .inl ⟨rfl, rfl, le_rfl⟩
  · exact .inr ⟨_, _, rfl, rfl⟩
  · exact .inl ⟨rfl, rfl, le_rfl⟩

def CheckResult.request (r : CheckResult) : TokenBucket.Request ℚ where
  time := r.time
  granted := r.allowed
  left := r.left

def perNano (rate : Nat) : ℚ := rate / 1000000000

theorem perNano_nonneg : 0 ≤ perNano rate := by
  unfold perNano
  positivity

/-- The bucket is what the last decision on its key left. -/
structure Metering (capacity rate : Nat) (key : String) (steps : List CheckStep)
    (s : TimedLimiter) :
    Prop where
  time_le : ∀ r ∈ resultsOn key steps, r.time ≤ s.clock
  bucket : ∀ r ∈ (resultsOn key steps).getLast?,
    s.limiter.buckets.lookup key = some { tokens := r.left, lastRefill := r.reading }
  unseen : resultsOn key steps = [] → key ∉ s.limiter.buckets ∧ key ∉ s.limiter.ghost
  metered : (resultsOn key steps).IsChain Steady →
    TokenBucket.Metered (capacity : ℚ) (perNano rate)
      ((resultsOn key steps).map CheckResult.request)

theorem Metering.other {step : CheckStep} (h : Metering capacity rate key steps s)
    (hresult : resultOn key step = none) (hclock : s.clock ≤ s'.clock)
    (hlookup : key ∈ s.limiter.buckets →
      s'.limiter.buckets.lookup key = s.limiter.buckets.lookup key)
    (hunseen : key ∉ s.limiter.buckets → key ∉ s.limiter.ghost →
      key ∉ s'.limiter.buckets ∧ key ∉ s'.limiter.ghost) :
    Metering capacity rate key (steps ++ [step]) s' := by
  have hsame : resultsOn key (steps ++ [step]) = resultsOn key steps := by
    simp [resultsOn, hresult]
  constructor
  · rw [hsame]
    exact fun r hr => (h.time_le r hr).trans hclock
  · rw [hsame]
    intro r hr
    have hbucket := h.bucket r hr
    rw [hlookup (AList.lookup_isSome.mp (by rw [hbucket]; rfl)), hbucket]
  · rw [hsame]
    exact fun hnone => hunseen (h.unseen hnone).1 (h.unseen hnone).2
  · rw [hsame]
    exact h.metered

/-! ### What one decision does -/

namespace RateLimiter

variable {b : Bucket}

theorem refill_le_capacity : refill capacity rate now b ≤ capacity := min_le_right _ _

theorem refill_nonneg (h : 0 ≤ b.tokens) (capacity rate now : Nat) :
    0 ≤ refill capacity rate now b :=
  le_min (by positivity) (Nat.cast_nonneg _)

theorem spend_add_cost :
    (spend capacity rate now b).tokens +
      (if decide (1 ≤ refill capacity rate now b) then 1 else 0) =
      refill capacity rate now b := by
  unfold spend
  by_cases hone : 1 ≤ refill capacity rate now b <;> simp [hone]

theorem spend_nonneg (h : 0 ≤ b.tokens) : 0 ≤ (spend capacity rate now b).tokens := by
  have hrefill := refill_nonneg h capacity rate now
  unfold spend
  by_cases hone : 1 ≤ refill capacity rate now b <;> simp [hone, hrefill]

theorem refill_le {time clock : Nat} (hsteady : now + time ≤ b.lastRefill + clock)
    (htime : time ≤ clock) :
    refill capacity rate now b ≤ b.tokens + perNano rate * (clock - time) := by
  have helapsed : ((now - b.lastRefill : Nat) : ℚ) ≤ clock - time := by
    rw [← Nat.cast_sub htime, Nat.cast_le]
    omega
  calc refill capacity rate now b ≤
    b.tokens + ((now - b.lastRefill : Nat) : ℚ) / 1000000000 * rate :=
        min_le_left _ _
    _ = b.tokens + perNano rate * ((now - b.lastRefill : Nat) : ℚ) := by
        unfold perNano
        ring
    _ ≤ b.tokens + perNano rate * (clock - time) := by
        gcongr
        exact perNano_nonneg

theorem makeLive_of_mem {s : RateLimiter} (h : key ∈ s.buckets) :
    s.makeLive capacity now key = s := by
  rw [makeLive, if_pos h]

theorem lookup_makeLive_of_unseen {s : RateLimiter} (h : key ∉ s.buckets) (hghost : key ∉ s.ghost) :
    (s.makeLive capacity now key).buckets.lookup key =
      some { tokens := capacity, lastRefill := now } := by
  have hevicted : key ∉ s.evictOldest.ghost := fun hmem =>
    (mem_of_mem_ghost_evictOldest hmem).elim h hghost
  rw [makeLive, if_neg h]
  simp [AList.lookup_eq_none.mpr hevicted]

end RateLimiter

theorem decision_spec (capacity rate now : Nat) (key : String) (s : TimedLimiter) :
    ∃ b, (s.limiter.makeLive capacity now key).buckets.lookup key = some b ∧
    (s.limiter.check capacity rate now key).2.buckets.lookup key =
      some { tokens := (decision capacity rate now key s).left, lastRefill := now } ∧
    (decision capacity rate now key s).left = (RateLimiter.spend capacity rate now b).tokens ∧
    (decision capacity rate now key s).left + (decision capacity rate now key s).request.cost =
      RateLimiter.refill capacity rate now b := by
  obtain ⟨b, hb, hcheck⟩ := RateLimiter.check_eq capacity rate now key s.limiter
  have hafter : (s.limiter.check capacity rate now key).2.buckets.lookup key =
      some (RateLimiter.spend capacity rate now b) := by
    rw [hcheck, AList.lookup_insert]
  have hleft : (decision capacity rate now key s).left =
      (RateLimiter.spend capacity rate now b).tokens := by
    simp [decision, hafter]
  refine ⟨b, hb, by rw [hafter, hleft]; rfl, hleft, ?_⟩
  rw [hleft, ← RateLimiter.spend_add_cost]
  simp only [TokenBucket.Request.cost, CheckResult.request, decision, hcheck]

theorem Metering.decided {step : CheckStep} (h : Metering capacity rate key steps s)
    (houtput : step.output = some (decision capacity rate now key s)) :
    Metering capacity rate key (steps ++ [step])
      { s with limiter := (s.limiter.check capacity rate now key).2 } := by
  obtain ⟨b, hb, hafter, hleft, hrefill⟩ :=
    decision_spec capacity rate now key s
  have hresults : resultsOn key (steps ++ [step]) =
      resultsOn key steps ++ [decision capacity rate now key s] := by
    have hresult : resultOn key step = some (decision capacity rate now key s) := by
      rw [resultOn, houtput, Option.filter_some, if_pos (by simp [decision])]
    simp [resultsOn, hresult]
  -- the new decision fits if the bucket it found was not overdrawn and not credited too much
  have hsnoc (hmetered : TokenBucket.Metered (capacity : ℚ) (perNano rate)
      ((resultsOn key steps).map CheckResult.request)) (hb : 0 ≤ b.tokens)
      (hlast : ∀ a ∈ ((resultsOn key steps).map CheckResult.request).getLast?, a.time ≤ s.clock ∧
        RateLimiter.refill capacity rate now b ≤ a.left + perNano rate * (s.clock - a.time)) :
      TokenBucket.Metered (capacity : ℚ) (perNano rate)
        ((resultsOn key steps).map CheckResult.request ++
          [(decision capacity rate now key s).request]) := by
    refine hmetered.snoc ?_ (hrefill.trans_le RateLimiter.refill_le_capacity) ?_
    · exact (RateLimiter.spend_nonneg hb).trans_eq hleft.symm
    · intro a ha
      exact ⟨(hlast a ha).1, hrefill.trans_le (hlast a ha).2⟩
  refine ⟨?_, ?_, ?_, ?_⟩
  · rw [hresults]
    intro a ha
    rcases List.mem_append.mp ha with ha | ha
    · exact h.time_le a ha
    · rw [List.mem_singleton.mp ha]
      exact le_rfl
  · rw [hresults]
    intro a ha
    obtain rfl : decision capacity rate now key s = a := by simpa using ha
    exact hafter
  · rw [hresults]
    intro hnil
    simp at hnil
  · rw [hresults, List.map_append, List.map_singleton, List.isChain_append]
    rintro ⟨hchain, -, hsteady⟩
    have hmetered := h.metered hchain
    rcases hlast : (resultsOn key steps).getLast? with _ | last
    · -- the first decision on the key finds a full bucket
      have hnil := List.getLast?_eq_none_iff.mp hlast
      obtain ⟨hlive, hghost⟩ := h.unseen hnil
      rw [RateLimiter.lookup_makeLive_of_unseen hlive hghost, Option.some.injEq] at hb
      refine hsnoc hmetered (hb ▸ Nat.cast_nonneg capacity) ?_
      simp [hnil]
    · have hbucket := h.bucket last (by rw [hlast]; rfl)
      rw [RateLimiter.makeLive_of_mem (AList.lookup_isSome.mp (by rw [hbucket]; rfl)), hbucket,
        Option.some.injEq] at hb
      have hmem := List.mem_of_getLast? hlast
      have htime := h.time_le last hmem
      refine hsnoc hmetered (hb ▸ hmetered.left_nonneg _ (List.mem_map_of_mem hmem)) ?_
      intro a ha
      rw [List.getLast?_map, hlast] at ha
      obtain rfl : last.request = a := by simpa using ha
      refine ⟨Nat.cast_le.mpr htime, ?_⟩
      have hcredit : now + last.time ≤ b.lastRefill + s.clock :=
        hb ▸ hsteady last (by rw [hlast]; rfl) (decision capacity rate now key s) (by simp)
      have hrefilled : RateLimiter.refill capacity rate now b ≤
          b.tokens + perNano rate * (s.clock - last.time) :=
        RateLimiter.refill_le hcredit htime
      rwa [← hb] at hrefilled ⊢

/-! ### Runs -/

theorem metering_of_checkSteps
    (hlive : ∀ step ∈ checkSteps capacity rate processes schedule,
      key ∈ step.before.shared.limiter.buckets → key ∈ step.after.shared.limiter.buckets) :
    (resultsOn key (checkSteps capacity rate processes schedule)).IsChain Steady →
      TokenBucket.Metered (capacity : ℚ) (perNano rate)
        ((resultsOn key (checkSteps capacity rate processes schedule)).map CheckResult.request) := by
  have hempty : Metering capacity rate key [] {} :=
    ⟨by simp [resultsOn], by simp [resultsOn], by simp, fun _ =>
      ⟨by simp [resultsOn], by simp [resultsOn], by simp [resultsOn]⟩⟩
  rcases List.eq_nil_or_concat (checkSteps capacity rate processes schedule) with hnil |
    ⟨before, last, hsplit⟩
  · rw [hnil]
    exact hempty.metered
  · rw [List.concat_eq_append] at hsplit
    have hinvariant := Run.invariant_history
      (H := fun steps sys => Metering capacity rate key steps sys.shared) hempty ?_ hsplit
    · rw [hsplit]
      exact hinvariant.2.metered
    · intro before step hstep h
      obtain ⟨hsection, -⟩ := Interleaving.step_eq (Run.mem_steps hstep).2
      rcases checkSection_cases hsection with ⟨houtput, hlimiter, hclock⟩ | ⟨k, now, hafter,
        houtput⟩
      · refine h.other (by simp [resultOn, houtput]) hclock ?_ ?_ <;> rw [hlimiter]
        · exact fun _ => rfl
        · exact fun hbuckets hghost => ⟨hbuckets, hghost⟩
      · by_cases hk : k = key
        · subst hk
          rw [hafter]
          exact h.decided houtput
        · have hne : key ≠ k := fun heq => hk heq.symm
          refine h.other (by simp [resultOn, houtput, decision, hk]) (hafter ▸ le_rfl) ?_ ?_
          · intro hmem
            have hstays := hlive step hstep hmem
            rw [hafter] at hstays ⊢
            exact RateLimiter.lookup_check_of_ne hne hstays
          · rw [hafter]
            exact fun hbuckets hghost => ⟨fun hmem =>
              hbuckets (RateLimiter.mem_of_mem_check hne hmem),
              fun hmem => (RateLimiter.mem_of_mem_ghost_check hmem).elim hbuckets hghost⟩

/-- In an interval of `T` seconds a key is granted at most `capacity + rate * T` checks, in every
interleaving that credits its bucket with no more time than has passed. -/
theorem granted_le_of_steady
    (hlive : ∀ step ∈ checkSteps capacity rate processes schedule,
      key ∈ step.before.shared.limiter.buckets → key ∈ step.after.shared.limiter.buckets)
    (hsteady : (resultsOn key (checkSteps capacity rate processes schedule)).IsChain Steady)
    (start T : ℚ) (hT : 0 ≤ T) :
    ((resultsOn key (checkSteps capacity rate processes schedule)).countP (fun r =>
      r.allowed && decide (start ≤ r.time) && decide ((r.time : ℚ) ≤ start + T * 1000000000)) : ℚ) ≤
      capacity + rate * T := by
  have hmetered := metering_of_checkSteps hlive hsteady
  have hinterval : start ≤ start + T * 1000000000 := by linarith
  have hbound := hmetered.granted_le (Nat.cast_nonneg capacity) perNano_nonneg hinterval
  rw [TokenBucket.granted, List.countP_map] at hbound
  calc _ ≤ (capacity : ℚ) + perNano rate * (start + T * 1000000000 - start) := hbound
    _ = capacity + rate * T := by
        unfold perNano
        ring

end

/-! ### A delayed call -/

namespace Sample

def delayedProcesses : ℕ → LimiterProcess
  | 3 => .tick 10000000000
  | _ => .check "tenant"

def promptSchedule : List ℕ := [0, 0, 3, 1, 1, 2, 2]

def delayedSchedule : List ℕ := [0, 3, 1, 1, 0, 2, 2]

end Sample

/-- A delayed call sets the bucket back to its old reading, and the time since then is credited
twice: a bucket with one token grants two checks at one moment. -/
theorem two_granted_at_once :
    (∀ step ∈ checkSteps 1 1 Sample.delayedProcesses Sample.delayedSchedule,
      "tenant" ∈ step.before.shared.limiter.buckets →
      "tenant" ∈ step.after.shared.limiter.buckets) ∧
    ((resultsOn "tenant" (checkSteps 1 1 Sample.delayedProcesses Sample.delayedSchedule)).countP
      (fun r =>
      r.allowed && decide ((10000000000 : ℚ) ≤ r.time) &&
        decide ((r.time : ℚ) ≤ 10000000000 + 0 * 1000000000)) : ℚ) > (1 : Nat) + (1 : Nat) * 0 := by
  decide +kernel

/-- Every check is decided as soon as it has read the clock. -/
theorem granted_le_prompt :
    (∀ step ∈ checkSteps 1 1 Sample.delayedProcesses Sample.promptSchedule,
      "tenant" ∈ step.before.shared.limiter.buckets →
      "tenant" ∈ step.after.shared.limiter.buckets) ∧
    ((resultsOn "tenant" (checkSteps 1 1 Sample.delayedProcesses Sample.promptSchedule)).countP
      (fun r =>
      r.allowed && decide ((0 : ℚ) ≤ r.time) && decide ((r.time : ℚ) ≤ 0 + 10 * 1000000000)) : ℚ) ≤
      (1 : Nat) + (1 : Nat) * 10 := by
  have hlive : ∀ step ∈ checkSteps 1 1 Sample.delayedProcesses Sample.promptSchedule,
      "tenant" ∈ step.before.shared.limiter.buckets →
      "tenant" ∈ step.after.shared.limiter.buckets := by
    decide +kernel
  exact ⟨hlive, granted_le_of_steady hlive (by unfold Steady; decide +kernel) 0 10 (by norm_num)⟩

end Signer
