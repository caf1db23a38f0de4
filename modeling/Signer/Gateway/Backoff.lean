import Mathlib.Data.List.AList
import Signer.Service.Run

/-!
# The circuit breaker

A rate-limited answer opens a circuit for its key, and requests are refused until the backoff has
passed. The circuit then half-opens, but nothing stops a second request from following the first:
the flag is read only when a report comes in.
-/

namespace Signer.Gateway

structure Circuit where
  backoff : ℕ
  openedAt : ℕ
  halfOpen : Bool

/-- The circuits of a `BackoffManager`. -/
abbrev Circuits := AList fun _ : String => Circuit

def initialBackoff : ℕ := 50000000

def maxBackoff : ℕ := 10000000000

def maxCircuits : ℕ := 4096

namespace Circuits

variable {s : Circuits} {key k : String} {c c' : Circuit} {now : ℕ} {reading : String → ℕ}

def allow (key : String) (now : ℕ) (s : Circuits) : Bool × Circuits :=
  match s.lookup key with
  | none => (true, s)
  | some c =>
    if c.backoff ≤ now - c.openedAt then (true, s.insert key { c with halfOpen := true })
    else (false, s)

def reportSuccess (key : String) (s : Circuits) : Circuits := s.erase key

def retainRunning (reading : String → ℕ) (s : Circuits) : Circuits where
  entries := s.entries.filter fun entry => reading entry.1 - entry.2.openedAt < entry.2.backoff
  nodupKeys := s.nodupKeys.sublist List.filter_sublist

def reopen (now : ℕ) (c : Circuit) : Circuit :=
  { backoff := if c.halfOpen then min (2 * c.backoff) maxBackoff else c.backoff
    openedAt := now
    halfOpen := false }

def track (key : String) (now : ℕ) (s : Circuits) : Circuits :=
  s.insert key (reopen now ((s.lookup key).getD ⟨initialBackoff, now, false⟩))

def reportRateLimited (key : String) (reading : String → ℕ) (now : ℕ) (s : Circuits) : Circuits :=
  if maxCircuits ≤ s.entries.length ∧ key ∉ s then
    let s := s.retainRunning reading
    if maxCircuits ≤ s.entries.length then s else s.track key now
  else s.track key now

theorem lookup_retainRunning (h : (s.retainRunning reading).lookup k = some c) :
    s.lookup k = some c := by
  rw [← Option.mem_def, AList.mem_lookup_iff] at h ⊢
  exact (List.mem_filter.mp h).1

theorem lookup_allow (h : (s.allow key now).2.lookup k = some c') :
    ∃ c, s.lookup k = some c ∧ c'.backoff = c.backoff ∧ c'.openedAt = c.openedAt := by
  unfold allow at h
  split at h
  · exact ⟨c', h, rfl, rfl⟩
  · rename_i c hc
    split at h
    · by_cases hk : k = key
      · subst hk
        rw [AList.lookup_insert, Option.some.injEq] at h
        exact ⟨c, hc, by rw [← h], by rw [← h]⟩
      · rw [AList.lookup_insert_ne hk] at h
        exact ⟨c', h, rfl, rfl⟩
    · exact ⟨c', h, rfl, rfl⟩

theorem allow_fst : (s.allow key now).1 = true ↔
    ∀ c, s.lookup key = some c → c.backoff ≤ now - c.openedAt := by
  unfold allow
  split
  · rename_i hnone
    simp [hnone]
  · rename_i c hc
    split <;> simp_all

theorem lookup_track_of_ne (hne : k ≠ key) : (s.track key now).lookup k = s.lookup k :=
  AList.lookup_insert_ne hne

theorem lookup_reportRateLimited_of_ne (hne : k ≠ key)
    (h : (s.reportRateLimited key reading now).lookup k = some c) : s.lookup k = some c := by
  unfold reportRateLimited at h
  split at h
  · dsimp only at h
    split at h
    · exact lookup_retainRunning h
    · exact lookup_retainRunning (lookup_track_of_ne hne ▸ h)
  · exact lookup_track_of_ne hne ▸ h

theorem lookup_reportRateLimited_self (h : s.lookup key = some c) :
    (s.reportRateLimited key reading now).lookup key = some (reopen now c) := by
  have hmem : key ∈ s := AList.lookup_isSome.mp (h ▸ rfl)
  rw [reportRateLimited, if_neg (fun hfull => hfull.2 hmem), track, AList.lookup_insert, h]
  rfl

/-! ### Bounds -/

/-- Few circuits, with backoffs within the bounds. -/
structure Bounded (s : Circuits) : Prop where
  length_le : s.entries.length ≤ maxCircuits
  backoff_pos : ∀ k c, s.lookup k = some c → 0 < c.backoff
  backoff_le : ∀ k c, s.lookup k = some c → c.backoff ≤ maxBackoff

theorem length_insert_of_mem (hmem : key ∈ s) (c : Circuit) :
    (s.insert key c).entries.length = s.entries.length := by
  have hkeys : (s.insert key c).keys.Perm s.keys := by
    refine (List.perm_ext_iff_of_nodup (AList.keys_nodup _) (AList.keys_nodup _)).mpr fun k => ?_
    rw [← AList.mem_keys, ← AList.mem_keys, AList.mem_insert, or_iff_right_of_imp]
    rintro rfl
    exact hmem
  simpa [AList.keys, List.keys] using hkeys.length_eq

theorem length_insert_le (c : Circuit) :
    (s.insert key c).entries.length ≤ s.entries.length + 1 := by
  rw [AList.entries_insert, List.length_cons]
  exact Nat.succ_le_succ (List.kerase_sublist key s.entries).length_le

theorem Bounded.insert (h : s.Bounded) (hlength : (s.insert key c).entries.length ≤ maxCircuits)
    (hpos : 0 < c.backoff) (hle : c.backoff ≤ maxBackoff) : Bounded (s.insert key c) := by
  have hlookup : ∀ {k c'}, (s.insert key c).lookup k = some c' → c' = c ∨ s.lookup k = some c' := by
    intro k c' hc'
    by_cases hk : k = key
    · subst hk
      rw [AList.lookup_insert, Option.some.injEq] at hc'
      exact .inl hc'.symm
    · rw [AList.lookup_insert_ne hk] at hc'
      exact .inr hc'
  refine ⟨hlength, fun k c' hc' => ?_, fun k c' hc' => ?_⟩
  · rcases hlookup hc' with rfl | hold
    · exact hpos
    · exact h.backoff_pos k c' hold
  · rcases hlookup hc' with rfl | hold
    · exact hle
    · exact h.backoff_le k c' hold

theorem Bounded.allow (h : s.Bounded) : Bounded (s.allow key now).2 := by
  unfold Circuits.allow
  split
  · exact h
  · rename_i c hc
    split
    · refine h.insert ?_ (h.backoff_pos key c hc) (h.backoff_le key c hc)
      rw [length_insert_of_mem (AList.lookup_isSome.mp (hc ▸ rfl))]
      exact h.length_le
    · exact h

theorem Bounded.sub (h : s.Bounded) {s' : Circuits} (hlength : s'.entries.length ≤ s.entries.length)
    (hlookup : ∀ k c, s'.lookup k = some c → s.lookup k = some c) : Bounded s' :=
  ⟨Nat.le_trans hlength h.length_le, fun k c hc => h.backoff_pos k c (hlookup k c hc),
    fun k c hc => h.backoff_le k c (hlookup k c hc)⟩

theorem lookup_reportSuccess (h : (s.reportSuccess key).lookup k = some c) :
    s.lookup k = some c := by
  rw [reportSuccess] at h
  by_cases hk : k = key
  · rw [hk, AList.lookup_erase] at h
    cases h
  · rwa [AList.lookup_erase_ne hk] at h

theorem Bounded.reportSuccess (h : s.Bounded) : Bounded (s.reportSuccess key) :=
  h.sub (List.kerase_sublist key s.entries).length_le fun _ _ => lookup_reportSuccess

theorem Bounded.retainRunning (h : s.Bounded) : Bounded (s.retainRunning reading) :=
  h.sub (List.length_filter_le _ _) fun _ _ => lookup_retainRunning

theorem Bounded.track (h : s.Bounded) (hroom : s.entries.length < maxCircuits ∨ key ∈ s) :
    Bounded (s.track key now) := by
  obtain ⟨c, hc, hpos, hle⟩ : ∃ c, (s.lookup key).getD ⟨initialBackoff, now, false⟩ = c ∧
      0 < c.backoff ∧ c.backoff ≤ maxBackoff := by
    cases hc : s.lookup key with
    | none =>
      exact ⟨_, rfl, show 0 < initialBackoff by decide, show initialBackoff ≤ maxBackoff by decide⟩
    | some c => exact ⟨c, rfl, h.backoff_pos key c hc, h.backoff_le key c hc⟩
  rw [Circuits.track, hc]
  refine h.insert ?_ ?_ ?_
  · rcases hroom with hroom | hmem
    · exact Nat.le_trans (length_insert_le _) hroom
    · rw [length_insert_of_mem hmem]
      exact h.length_le
  · dsimp only [reopen, maxBackoff]
    split <;> omega
  · dsimp only [reopen]
    split
    · exact Nat.min_le_right _ _
    · exact hle

theorem Bounded.reportRateLimited (h : s.Bounded) :
    Bounded (s.reportRateLimited key reading now) := by
  unfold Circuits.reportRateLimited
  split
  · dsimp only
    split
    · exact h.retainRunning
    · exact h.retainRunning.track (.inl (by omega))
  · rename_i hfull
    refine h.track (Classical.or_iff_not_imp_right.mpr fun hnew => ?_)
    have := mt (fun hlong => (⟨hlong, hnew⟩ : _ ∧ _)) hfull
    omega

end Circuits

/-! ### Runs -/

inductive BackoffCall where
  | allow (request : ℕ) (key : String) (now : ℕ)
  | success (key : String)
  | limited (request : ℕ) (key : String) (reading : String → ℕ) (now : ℕ)

def backoffCall : BackoffCall → Circuits → Bool × Circuits
  | .allow _ key now, s => s.allow key now
  | .success key, s => (true, s.reportSuccess key)
  | .limited _ key reading now, s => (true, s.reportRateLimited key reading now)

abbrev BackoffStep := Run.Step BackoffCall Circuits Bool

def backoffSteps (calls : List BackoffCall) : List BackoffStep := Run.steps backoffCall ∅ calls

def reported : BackoffCall → Option String
  | .allow _ _ _ => none
  | .success key => some key
  | .limited _ key _ _ => some key

def allowTime (key : String) : BackoffCall → Option ℕ
  | .allow _ k now => if k = key then some now else none
  | _ => none

/-- A report on `key` left the circuit `c`, and `stretch` is a part of the run behind it without
another report on the key. -/
def Opened (steps : List BackoffStep) (key : String) (c : Circuit) (stretch : List BackoffStep) :
    Prop :=
  ∃ before report after, steps = before ++ report :: (stretch ++ after) ∧
    reported report.input = some key ∧ report.after.lookup key = some c ∧
    ∀ step ∈ stretch, reported step.input ≠ some key

/-- The call asks for the key at a time when the window of `c` has passed. -/
def asksLate (key : String) (c : Circuit) (step : BackoffStep) : Bool :=
  (allowTime key step.input).any (c.openedAt + c.backoff ≤ ·)

/-- Since the last report on the key, the request has asked at a time when no window of the key was
running. -/
def AskedAfterWindow (past : List BackoffStep) (request : ℕ) (key : String) : Prop :=
  ∃ before step mid now, past = before ++ step :: mid ∧ step.input = .allow request key now ∧
    (∀ c, step.before.lookup key = some c → c.backoff ≤ now - c.openedAt) ∧
    ∀ later ∈ mid, reported later.input ≠ some key

/-- Since the last report on the key, the request has asked its circuit, and the window had passed:
it is the probe of a half-open circuit. -/
def Probe (past : List BackoffStep) (request : ℕ) (key : String) : Prop :=
  ∃ before step mid now c, past = before ++ step :: mid ∧ step.input = .allow request key now ∧
    step.before.lookup key = some c ∧ c.backoff ≤ now - c.openedAt ∧
    ∀ later ∈ mid, reported later.input ≠ some key

/-- What the module promises: between two reports no request is let through before the window has
passed and at most one after it, a backoff is doubled by a probe alone, and backoffs and circuits
stay within their bounds. -/
structure OneProbe (steps : List BackoffStep) : Prop where
  early : ∀ key c stretch, Opened steps key c stretch → ∀ step ∈ stretch, ∀ now,
    allowTime key step.input = some now → now < c.openedAt + c.backoff → step.output = false
  late : ∀ key c stretch, Opened steps key c stretch →
    (stretch.filter fun step => step.output && asksLate key c step).length ≤ 1
  doubled : ∀ before report after request key reading now c c',
    steps = before ++ report :: after → report.input = .limited request key reading now →
    report.before.lookup key = some c → report.after.lookup key = some c' →
    c'.backoff ≠ c.backoff → Probe before request key
  backoff_le : ∀ step ∈ steps, ∀ key c, step.after.lookup key = some c → c.backoff ≤ maxBackoff
  length_le : ∀ step ∈ steps, step.after.entries.length ≤ maxCircuits

/-- What callers and clock have to see to: no circuit is pruned before its window has passed, at most
one request asks behind it, and who reports to a half-open circuit asked it when it could pass. -/
structure OneAsks (steps : List BackoffStep) : Prop where
  early : ∀ key c stretch, Opened steps key c stretch → ∀ step ∈ stretch, ∀ now,
    allowTime key step.input = some now → now < c.openedAt + c.backoff → key ∈ step.before
  late : ∀ key c stretch, Opened steps key c stretch →
    (stretch.filter (asksLate key c)).length ≤ 1
  own : ∀ before report after request key reading now c,
    steps = before ++ report :: after → report.input = .limited request key reading now →
    report.before.lookup key = some c → c.halfOpen = true → c.backoff < maxBackoff →
    AskedAfterWindow before request key

section

variable {calls : List BackoffCall} {call : BackoffCall} {s : Circuits} {key : String}
  {c c' : Circuit} {before after stretch mid : List BackoffStep} {step report : BackoffStep}

theorem bounded_backoffCall (h : s.Bounded) : Circuits.Bounded (backoffCall call s).2 := by
  cases call with
  | allow request key now => exact h.allow
  | success key => exact h.reportSuccess
  | limited request key reading now => exact h.reportRateLimited

theorem bounded_of_backoffSteps (h : step ∈ backoffSteps calls) :
    step.before.Bounded ∧ step.after.Bounded := by
  refine Run.invariant (I := Circuits.Bounded) ⟨Nat.zero_le _, ?_, ?_⟩ (fun step hstep h => ?_)
    step h
  · simp
  · simp
  · rw [Run.after_eq hstep]
    exact bounded_backoffCall h

theorem lookup_backoffCall (hquiet : reported call ≠ some key)
    (h : (backoffCall call s).2.lookup key = some c') :
    ∃ c, s.lookup key = some c ∧ c'.backoff = c.backoff ∧ c'.openedAt = c.openedAt := by
  cases call with
  | allow request k now => exact Circuits.lookup_allow h
  | success k => exact ⟨c', Circuits.lookup_reportSuccess h, rfl, rfl⟩
  | limited request k reading now =>
    refine ⟨c', Circuits.lookup_reportRateLimited_of_ne (fun heq => hquiet ?_) h, rfl, rfl⟩
    rw [reported, heq]

section

variable (h : Opened (backoffSteps calls) key c stretch)

include h

theorem window_of_opened (hstep : step ∈ stretch)
    (hc' : step.before.lookup key = some c') :
    c'.backoff = c.backoff ∧ c'.openedAt = c.openedAt := by
  obtain ⟨before, report, after, hrun, -, hopen, hquiet⟩ := h
  obtain ⟨first, rest, rfl⟩ := List.append_of_mem hstep
  obtain ⟨calls', hrest⟩ := Run.exists_steps_after hrun
  have hsplit : Run.steps backoffCall report.after calls' = first ++ step :: (rest ++ after) := by
    rw [← hrest]
    simp
  refine Run.invariant_until (I := fun s => ∀ c', s.lookup key = some c' →
    c'.backoff = c.backoff ∧ c'.openedAt = c.openedAt) (fun c' hc' => ?_) hsplit
    (fun earlier hearlier ih c' hc' => ?_) c' hc'
  · rw [hopen, Option.some.injEq] at hc'
    simp [hc']
  · rw [Run.after_eq (hsplit ▸ List.mem_append_left _ hearlier)] at hc'
    obtain ⟨old, hold, hbackoff, hopened⟩ := lookup_backoffCall
      (hquiet earlier (List.mem_append_left _ hearlier)) hc'
    rw [hbackoff, hopened]
    exact ih old hold

theorem mem_of_opened (hstep : step ∈ stretch) :
    step ∈ backoffSteps calls := by
  obtain ⟨before, report, after, hrun, -⟩ := h
  rw [hrun]
  simp [hstep]

theorem output_of_opened {now : ℕ}
    (hstep : step ∈ stretch) (hnow : allowTime key step.input = some now) :
    step.output = true ↔ key ∈ step.before → c.openedAt + c.backoff ≤ now := by
  have hrun := mem_of_opened h hstep
  obtain ⟨request, hinput⟩ : ∃ request, step.input = .allow request key now := by
    unfold allowTime at hnow
    split at hnow
    · rename_i request k t hinput
      split at hnow
      · rename_i hk
        rw [Option.some.injEq] at hnow
        exact ⟨request, by rw [hinput, hk, hnow]⟩
      · cases hnow
    · cases hnow
  rw [Run.output_eq hrun, hinput]
  change (step.before.allow key now).1 = true ↔ _
  rw [Circuits.allow_fst, ← AList.lookup_isSome, Option.isSome_iff_exists]
  constructor
  · rintro hall ⟨c', hc'⟩
    obtain ⟨hbackoff, hopened⟩ := window_of_opened h hstep hc'
    have hpos := (bounded_of_backoffSteps hrun).1.backoff_pos key c' hc'
    have := hall c' hc'
    omega
  · intro himp c' hc'
    obtain ⟨hbackoff, hopened⟩ := window_of_opened h hstep hc'
    have := himp ⟨c', hc'⟩
    omega

theorem early_iff :
    (∀ step ∈ stretch, ∀ now, allowTime key step.input = some now →
      now < c.openedAt + c.backoff → step.output = false) ↔
    ∀ step ∈ stretch, ∀ now, allowTime key step.input = some now →
      now < c.openedAt + c.backoff → key ∈ step.before := by
  refine forall₂_congr fun step hstep => forall₂_congr fun now hnow => forall_congr' fun hearly => ?_
  rw [← Bool.not_eq_true, output_of_opened h hstep hnow, Classical.not_imp]
  exact ⟨And.left, fun hmem => ⟨hmem, Nat.not_le.mpr hearly⟩⟩

theorem filter_asksLate :
    (stretch.filter fun step => step.output && asksLate key c step) =
      stretch.filter (asksLate key c) := by
  refine List.filter_congr fun step hstep => ?_
  cases hnow : allowTime key step.input with
  | none => simp [asksLate, hnow]
  | some now =>
    rw [asksLate, hnow, Option.any_some, Bool.eq_iff_iff, Bool.and_eq_true, decide_eq_true_eq]
    exact and_iff_right_of_imp fun hlate => (output_of_opened h hstep hnow).mpr fun _ => hlate

end

theorem probe_iff_askedAfterWindow {request : ℕ}
    (h : backoffSteps calls = before ++ report :: after) (hmem : key ∈ report.before) :
    Probe before request key ↔ AskedAfterWindow before request key := by
  constructor
  · rintro ⟨first, step, mid, now, c, rfl, hinput, hc, hpassed, hquiet⟩
    refine ⟨first, step, mid, now, rfl, hinput, fun c' hc' => ?_, hquiet⟩
    rw [hc, Option.some.injEq] at hc'
    exact hc' ▸ hpassed
  · rintro ⟨first, step, mid, now, rfl, hinput, hpassed, hquiet⟩
    have hstep : step ∈ backoffSteps calls := h ▸ by simp
    have hfound : key ∈ step.before := by
      by_contra habsent
      have hrun : backoffSteps calls = first ++ step :: (mid ++ report :: after) := by
        rw [h]
        simp
      obtain ⟨calls', hrest⟩ := Run.exists_steps_after hrun
      have hkeep : ∀ {call : BackoffCall} {s : Circuits}, reported call ≠ some key → key ∉ s →
          key ∉ (backoffCall call s).2 := by
        intro call s hquiet habsent hmem
        obtain ⟨c', hc'⟩ := Option.isSome_iff_exists.mp (AList.lookup_isSome.mpr hmem)
        obtain ⟨c, hc, -⟩ := lookup_backoffCall hquiet hc'
        exact habsent (AList.lookup_isSome.mp (hc ▸ rfl))
      refine Run.invariant_until (I := fun s => key ∉ s) ?_ hrest.symm
        (fun later hlater habsent => ?_) hmem
      · rw [Run.after_eq hstep]
        exact hkeep (by simp [hinput, reported]) habsent
      · rw [Run.after_eq (hrest ▸ List.mem_append_left _ hlater)]
        exact hkeep (hquiet later hlater) habsent
    obtain ⟨c, hc⟩ := Option.isSome_iff_exists.mp (AList.lookup_isSome.mpr hfound)
    exact ⟨first, step, mid, now, c, rfl, hinput, hc, hpassed c hc, hquiet⟩

theorem doubled_iff {request : ℕ} {reading : String → ℕ} {now : ℕ}
    (h : backoffSteps calls = before ++ report :: after)
    (hinput : report.input = .limited request key reading now)
    (hc : report.before.lookup key = some c) (hc' : report.after.lookup key = some c') :
    c'.backoff ≠ c.backoff ↔ c.halfOpen = true ∧ c.backoff < maxBackoff := by
  have hreport : report ∈ backoffSteps calls := h ▸ by simp
  have hbounded := (bounded_of_backoffSteps hreport).1
  have hpos := hbounded.backoff_pos key c hc
  have hle := hbounded.backoff_le key c hc
  rw [Run.after_eq hreport, hinput] at hc'
  change (report.before.reportRateLimited key reading now).lookup key = some c' at hc'
  rw [Circuits.lookup_reportRateLimited_self hc, Option.some.injEq] at hc'
  rw [← hc', Circuits.reopen]
  dsimp only [maxBackoff] at hle ⊢
  split
  · rename_i hhalf
    simp only [hhalf, true_and]
    omega
  · rename_i hhalf
    simp [hhalf]

/-- **One probe per window**: nothing is let through between two reports before the window has
passed and at most one request after it, backoffs are bounded and doubled only by probes, and the
map is bounded, exactly if callers and clock see to it: at most one request asks in that time, no
circuit is pruned early, and only a request that has since asked past the window reports to a
half-open circuit. -/
theorem circuit_breaker_one_probe_iff (calls : List BackoffCall) :
    OneProbe (backoffSteps calls) ↔ OneAsks (backoffSteps calls) := by
  constructor
  · intro h
    refine ⟨fun key c stretch hopen => (early_iff hopen).mp (h.early key c stretch hopen),
      fun key c stretch hopen => filter_asksLate hopen ▸ h.late key c stretch hopen,
      fun before report after request key reading now c hrun hinput hc hhalf hlow => ?_⟩
    have hmem : key ∈ report.before := AList.lookup_isSome.mp (hc ▸ rfl)
    have hc' : report.after.lookup key = some (Circuits.reopen now c) := by
      rw [Run.after_eq (hrun ▸ by simp : report ∈ backoffSteps calls), hinput]
      exact Circuits.lookup_reportRateLimited_self hc
    exact (probe_iff_askedAfterWindow hrun hmem).mp (h.doubled before report after request key
      reading now c _ hrun hinput hc hc' ((doubled_iff hrun hinput hc hc').mpr ⟨hhalf, hlow⟩))
  · intro h
    refine ⟨fun key c stretch hopen => (early_iff hopen).mpr (h.early key c stretch hopen),
      fun key c stretch hopen => (filter_asksLate hopen).symm ▸ h.late key c stretch hopen,
      fun before report after request key reading now c c' hrun hinput hc hc' hne => ?_,
      fun step hstep key c => (bounded_of_backoffSteps hstep).2.backoff_le key c,
      fun step hstep => (bounded_of_backoffSteps hstep).2.length_le⟩
    obtain ⟨hhalf, hlow⟩ := (doubled_iff hrun hinput hc hc').mp hne
    exact (probe_iff_askedAfterWindow hrun (AList.lookup_isSome.mp (hc ▸ rfl))).mpr
      (h.own before report after request key reading now c hrun hinput hc hhalf hlow)

end

/-- Two requests ask when the window of 50 ms has passed, and both are let through. -/
theorem circuit_breaker_two_probes : ¬ OneProbe (backoffSteps
    [.limited 0 "okx" (fun _ => 0) 0, .allow 1 "okx" 50000000, .allow 2 "okx" 50000000]) := by
  intro h
  have hopen : Opened (backoffSteps [.limited 0 "okx" (fun _ => 0) 0, .allow 1 "okx" 50000000,
      .allow 2 "okx" 50000000]) "okx" ⟨50000000, 0, false⟩ [_, _] :=
    ⟨[], _, [], rfl, rfl, rfl, by simp [reported]⟩
  exact absurd (h.late _ _ _ hopen) (by decide)

end Signer.Gateway
