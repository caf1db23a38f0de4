import Signer.Gateway.Unwinding

/-!
# An unwind always happens

As long as stops do not meet a job past its first look, and restarts find the table on file, a
stopped customer is never left with an open unwind and nobody to do it: a job holds its claim, or a
kick is on its way.
-/

namespace Signer.Gateway.UnwindSystem

variable {codec : AtomicFile.Codec StateFile} {s : UnwindSystem} {customer : String}

def Attended (s : UnwindSystem) (customer : String) : Prop :=
  s.Unwound customer ∨ s.Unreachable customer

/-- The job keeps its contract, and the system shows what it did. -/
structure JobSound (s : UnwindSystem) (customer : String) (job : UnwindJob) : Prop where
  record : (s.table.store.inner.lookup customer).isSome
  contract : job.program.Follows (Contract job.canList) job.past fun now _ => Wrote now
  listed_iff : Listed job.past ↔ job.listedAt.isSome
  looked_of_listed : Listed job.past → Looked job.past
  working : Working job.past → s.Open customer
  wrote : Wrote job.past → s.Final customer ∧ (s.Stopped customer → s.Attended customer)
  looked : Looked job.past → s.Stopped customer →
    ¬SawActive job.past ∧ ∀ time, job.listedAt = some time → s.stoppedAt customer < time

/-- A stopped customer is attended to, or its unwind is open and somebody will do it. -/
structure Sound (codec : AtomicFile.Codec StateFile) (s : UnwindSystem) : Prop where
  honest : s.table.Honest codec
  path : s.table.store.path.isSome
  before : ∀ customer, s.stoppedAt customer < s.clock
  attended : ∀ customer, s.Stopped customer → s.Attended customer ∨ s.Open customer
  pending : s.up = true → ∀ customer, s.Stopped customer → s.Open customer →
    (s.jobs customer).isSome ∨ customer ∈ s.kicks ∨ customer ∈ s.claims
  claimed : ∀ customer ∈ s.claims, (s.table.store.inner.lookup customer).isSome
  jobs : ∀ customer job, s.jobs customer = some job → s.JobSound customer job

theorem not_final_of_open (h : s.Open customer) : ¬s.Final customer := by
  rintro ⟨status, hstatus, hfinal⟩
  rw [h status hstatus] at hfinal
  cases hfinal

theorem Sound.attended_of_quiet (h : s.Sound codec) (hstopped : s.Stopped customer)
    (hquiet : s.Quiet customer) : s.Attended customer := by
  obtain ⟨hup, hjob, hkicks, hclaims⟩ := hquiet
  rcases h.attended customer hstopped with hattended | hopen
  · exact hattended
  · rcases h.pending hup customer hstopped hopen with hsome | hmem | hmem
    · rw [hjob] at hsome
      cases hsome
    · exact absurd hmem hkicks
    · exact absurd hmem hclaims

theorem sound_start (deployment : Deployment) (path : String) :
    (start deployment path).Sound codec where
  honest := TenantTable.honest_of_boots (.inr ⟨path, true, rfl⟩)
  path := rfl
  before := fun _ => Nat.zero_lt_one
  attended := fun _ h => absurd rfl h
  pending := fun _ _ h => absurd rfl h
  claimed := by simp [start]
  jobs := by simp [start]

/-! ### Steps that leave a customer alone -/

structure Agree (s t : UnwindSystem) (customer : String) : Prop where
  lookup : t.table.store.inner.lookup customer = s.table.store.inner.lookup customer
  stoppedAt : t.stoppedAt customer = s.stoppedAt customer
  writtenBy : t.writtenBy customer = s.writtenBy customer

variable {now : ℕ}

section

variable {t : UnwindSystem}

theorem Agree.stateOf (h : Agree s t customer) :
    t.table.store.stateOf customer = s.table.store.stateOf customer := by
  rw [TenantStateStore.stateOf, TenantStateStore.stateOf, h.lookup]

theorem Agree.reconcileOf (h : Agree s t customer) :
    t.table.store.reconcileOf customer = s.table.store.reconcileOf customer := by
  rw [TenantStateStore.reconcileOf, TenantStateStore.reconcileOf, h.lookup]

theorem Agree.stopped_iff (h : Agree s t customer) : t.Stopped customer ↔ s.Stopped customer := by
  rw [Stopped, Stopped, h.stateOf]

theorem Agree.open_iff (h : Agree s t customer) : t.Open customer ↔ s.Open customer := by
  rw [Open, Open, h.reconcileOf]

theorem Agree.final_iff (h : Agree s t customer) : t.Final customer ↔ s.Final customer := by
  rw [Final, Final, h.reconcileOf]

theorem Agree.attended_iff (h : Agree s t customer) :
    t.Attended customer ↔ s.Attended customer := by
  rw [Attended, Attended, Unwound, Unwound, Unreachable, Unreachable, h.final_iff, h.writtenBy,
    h.stoppedAt]

theorem JobSound.of_agree {job : UnwindJob} (h : s.JobSound customer job)
    (hagree : Agree s t customer) : t.JobSound customer job where
  record := by rw [hagree.lookup]; exact h.record
  contract := h.contract
  listed_iff := h.listed_iff
  looked_of_listed := h.looked_of_listed
  working := fun hworking => hagree.open_iff.mpr (h.working hworking)
  wrote := fun hwrote => ⟨hagree.final_iff.mpr (h.wrote hwrote).1, fun hstopped =>
    hagree.attended_iff.mpr ((h.wrote hwrote).2 (hagree.stopped_iff.mp hstopped))⟩
  looked := fun hlooked hstopped => by
    rw [hagree.stoppedAt]
    exact h.looked hlooked (hagree.stopped_iff.mp hstopped)

theorem Sound.tick (h : s.Sound codec) :
    ({ s with clock := s.clock + 1 } : UnwindSystem).Sound codec where
  honest := h.honest
  path := h.path
  before := fun customer => Nat.lt_succ_of_lt (h.before customer)
  attended := h.attended
  pending := h.pending
  claimed := h.claimed
  jobs := fun customer job hjob => (h.jobs customer job hjob).of_agree ⟨rfl, rfl, rfl⟩

/-- A step that touches one customer only. -/
structure Only (s t : UnwindSystem) (customer : String) : Prop where
  up : t.up = s.up
  agree : ∀ other, other ≠ customer → Agree s t other
  jobs : ∀ other, other ≠ customer → t.jobs other = s.jobs other
  kicks : ∀ other, other ≠ customer → (other ∈ t.kicks ↔ other ∈ s.kicks)
  claims : ∀ other, other ≠ customer → (other ∈ t.claims ↔ other ∈ s.claims)

theorem Only.refl (s : UnwindSystem) (customer : String) : Only s s customer :=
  ⟨rfl, fun _ _ => ⟨rfl, rfl, rfl⟩, fun _ _ => rfl, fun _ _ => Iff.rfl, fun _ _ => Iff.rfl⟩

theorem Only.tick (h : Only s t customer) :
    Only s { t with clock := s.clock + 1 } customer where
  up := h.up
  agree := fun other hother =>
    let ⟨hlookup, hstoppedAt, hwriter⟩ := h.agree other hother
    ⟨hlookup, hstoppedAt, hwriter⟩
  jobs := h.jobs
  kicks := h.kicks
  claims := h.claims

theorem only_kickReads : Only s (s.kickReads customer) customer := by
  unfold UnwindSystem.kickReads
  split
  · refine ⟨rfl, fun _ _ => ⟨rfl, rfl, rfl⟩, fun _ _ => rfl,
      fun other hother => List.mem_erase_of_ne hother, fun other hother => ?_⟩
    dsimp only
    split <;> simp [hother]
  · exact .refl s customer

theorem only_kickClaims : Only s (s.kickClaims customer) customer := by
  unfold UnwindSystem.kickClaims
  split
  · refine ⟨rfl, fun _ _ => ⟨rfl, rfl, rfl⟩, fun other hother => ?_, fun _ _ => Iff.rfl,
      fun other hother => List.mem_erase_of_ne hother⟩
    cases hheld : s.jobs customer with
    | none => simp [hother]
    | some job => simp
  · exact .refl s customer

theorem only_jobStep {answers : (q : JobQuery) → q.Answer} {writes : Bool} :
    Only s (s.jobStep codec customer answers now writes) customer := by
  unfold UnwindSystem.jobStep
  split
  · exact .refl s customer
  · split
    · exact .refl s customer
    · rename_i q _ _
      refine ⟨rfl, fun other hother => ⟨?_, rfl, Function.update_of_ne hother _ _⟩,
        fun other hother => Function.update_of_ne hother _ _, fun _ _ => Iff.rfl, fun _ _ => Iff.rfl⟩
      cases q <;> first | rfl | exact TenantTable.lookup_updateReconcile_of_ne hother

theorem only_jobEnds : Only s (s.jobEnds customer) customer := by
  unfold UnwindSystem.jobEnds
  split
  · exact .refl s customer
  · split
    · exact ⟨rfl, fun _ _ => ⟨rfl, rfl, rfl⟩, fun other hother => Function.update_of_ne hother _ _,
        fun _ _ => Iff.rfl, fun _ _ => Iff.rfl⟩
    · exact .refl s customer

theorem only_kick (s : UnwindSystem) (customer : String) :
    Only s { s with kicks := customer :: s.kicks } customer :=
  ⟨rfl, fun _ _ => ⟨rfl, rfl, rfl⟩, fun _ _ => rfl, fun other hother => by simp [hother],
    fun _ _ => Iff.rfl⟩

theorem Sound.of_only (h : s.Sound codec) (customer : String) (honly : Only s t customer)
    (hhonest : t.table.Honest codec) (hpath : t.table.store.path.isSome)
    (hclock : s.clock ≤ t.clock) (hbefore : t.stoppedAt customer < t.clock)
    (hattended : t.Stopped customer → t.Attended customer ∨ t.Open customer)
    (hpending : t.up = true → t.Stopped customer → t.Open customer →
      (t.jobs customer).isSome ∨ customer ∈ t.kicks ∨ customer ∈ t.claims)
    (hclaimed : customer ∈ t.claims → (t.table.store.inner.lookup customer).isSome)
    (hjob : ∀ job, t.jobs customer = some job → t.JobSound customer job) : t.Sound codec where
  honest := hhonest
  path := hpath
  before := by
    intro other
    by_cases hother : other = customer
    · exact hother ▸ hbefore
    · rw [(honly.agree other hother).stoppedAt]
      exact (h.before other).trans_le hclock
  attended := by
    intro other hstopped
    by_cases hother : other = customer
    · subst hother
      exact hattended hstopped
    · have hagree := honly.agree other hother
      rw [hagree.attended_iff, hagree.open_iff]
      exact h.attended other (hagree.stopped_iff.mp hstopped)
  pending := by
    intro hrunning other hstopped hopen
    by_cases hother : other = customer
    · subst hother
      exact hpending hrunning hstopped hopen
    · have hagree := honly.agree other hother
      rw [honly.jobs other hother, honly.kicks other hother, honly.claims other hother]
      exact h.pending (honly.up ▸ hrunning) other (hagree.stopped_iff.mp hstopped)
        (hagree.open_iff.mp hopen)
  claimed := by
    intro other hmem
    by_cases hother : other = customer
    · subst hother
      exact hclaimed hmem
    · rw [(honly.agree other hother).lookup]
      exact h.claimed other ((honly.claims other hother).mp hmem)
  jobs := by
    intro other job hsome
    by_cases hother : other = customer
    · subst hother
      exact hjob job hsome
    · rw [honly.jobs other hother] at hsome
      exact (h.jobs other job hsome).of_agree (honly.agree other hother)

theorem Sound.of_moves (h : s.Sound codec) {jobs : String → Option UnwindJob}
    {kicks claims : List String} (honly : Only s { s with jobs, kicks, claims } customer)
    (hpending : s.Stopped customer → s.Open customer →
      (jobs customer).isSome ∨ customer ∈ kicks ∨ customer ∈ claims)
    (hclaimed : customer ∈ claims → (s.table.store.inner.lookup customer).isSome)
    (hjob : ∀ job, jobs customer = some job → s.JobSound customer job) :
    ({ s with jobs, kicks, claims, clock := s.clock + 1 } : UnwindSystem).Sound codec :=
  h.of_only customer honly.tick h.honest h.path (Nat.le_succ _)
    (Nat.lt_succ_of_lt (h.before customer)) (h.attended customer) (fun _ => hpending) hclaimed
    fun job hsome => (hjob job hsome).of_agree ⟨rfl, rfl, rfl⟩

end

/-! ### Kicks -/

theorem Sound.kick (h : s.Sound codec) (customer : String) :
    ({ s with kicks := customer :: s.kicks, clock := s.clock + 1 } : UnwindSystem).Sound codec :=
  h.of_moves (only_kick s customer) (fun _ _ => .inr (.inl List.mem_cons_self))
    (h.claimed customer) (h.jobs customer)

theorem isReconcileCandidate_iff :
    s.table.store.isReconcileCandidate customer = true ↔ s.Stopped customer ∧ s.Open customer := by
  simp [TenantStateStore.isReconcileCandidate, Stopped, Open, Option.all_eq_true]

theorem isSome_lookup_of_stopped (h : s.Stopped customer) :
    (s.table.store.inner.lookup customer).isSome := by
  rw [Stopped, TenantStateStore.stateOf] at h
  cases hlookup : s.table.store.inner.lookup customer with
  | none => simp [hlookup] at h
  | some record => rfl

theorem Sound.kickReads (h : s.Sound codec) (customer : String) :
    ({ s.kickReads customer with clock := s.clock + 1 } : UnwindSystem).Sound codec := by
  have honly : Only s (s.kickReads customer) customer := only_kickReads
  unfold UnwindSystem.kickReads at honly ⊢
  by_cases hkick : customer ∈ s.kicks
  · rw [if_pos hkick] at honly ⊢
    refine h.of_moves honly (fun hstopped hopen => ?_) (fun hmem => ?_) (h.jobs customer)
    · have hdue : s.table.store.isReconcileCandidate customer = true :=
        isReconcileCandidate_iff.mpr ⟨hstopped, hopen⟩
      simp [hdue]
    · split at hmem
      · rename_i hdue
        exact isSome_lookup_of_stopped (isReconcileCandidate_iff.mp hdue).1
      · exact h.claimed customer hmem
  · rw [if_neg hkick]
    exact h.tick

theorem jobSound_spawn (hrecord : (s.table.store.inner.lookup customer).isSome)
    (deployment : Deployment) : s.JobSound customer (spawn deployment customer) where
  record := hrecord
  contract := job_contract ..
  listed_iff := by simp [spawn, Listed]
  looked_of_listed := by simp [spawn, Listed]
  working := by simp [spawn, Working, Started]
  wrote := by simp [spawn, Wrote]
  looked := by simp [spawn, Looked]

theorem Sound.kickClaims (h : s.Sound codec) (customer : String) :
    ({ s.kickClaims customer with clock := s.clock + 1 } : UnwindSystem).Sound codec := by
  have honly : Only s (s.kickClaims customer) customer := only_kickClaims
  unfold UnwindSystem.kickClaims at honly ⊢
  by_cases hclaim : customer ∈ s.claims
  · rw [if_pos hclaim] at honly ⊢
    cases hheld : s.jobs customer with
    | some job =>
      simp only [hheld] at honly ⊢
      exact h.of_moves honly (fun _ _ => .inl (by simp [hheld]))
        (fun _ => h.claimed customer hclaim) (h.jobs customer)
    | none =>
      simp only [hheld] at honly ⊢
      refine h.of_moves honly (fun _ _ => .inl (by simp)) (fun _ => h.claimed customer hclaim)
        fun job hjob => ?_
      rw [Function.update_self, Option.some.injEq] at hjob
      subst hjob
      exact jobSound_spawn (h.claimed customer hclaim) s.deployment
  · rw [if_neg hclaim]
    exact h.tick

theorem Sound.jobEnds (h : s.Sound codec) (customer : String) :
    ({ s.jobEnds customer with clock := s.clock + 1 } : UnwindSystem).Sound codec := by
  have honly : Only s (s.jobEnds customer) customer := only_jobEnds
  unfold UnwindSystem.jobEnds at honly ⊢
  cases hjob : s.jobs customer with
  | none => exact h.tick
  | some job =>
    cases hdone : job.program with
    | ask q next =>
      simp only [hdone]
      exact h.tick
    | done u =>
      simp only [hjob, hdone] at honly ⊢
      have hsound := h.jobs customer job hjob
      have hwrote : Wrote job.past := by
        have hcontract := hsound.contract
        rw [hdone] at hcontract
        exact hcontract
      refine h.of_moves honly
        (fun _ hopen => absurd (hsound.wrote hwrote).1 (not_final_of_open hopen))
        (h.claimed customer) fun later hlater => ?_
      rw [Function.update_self] at hlater
      cases hlater

/-! ### Transitions -/

/-- The system after a transition that changed the customer's record. -/
def moved (codec : AtomicFile.Codec StateFile) (writes : Bool) (customer : String)
    (record : TenantRecord) (s : UnwindSystem) : UnwindSystem :=
  { s with
    table := s.table.insertRecord codec writes customer record
    kicks := customer :: s.kicks
    stoppedAt :=
      if s.table.store.stateOf customer = .active then Function.update s.stoppedAt customer s.clock
      else s.stoppedAt }

theorem transition_cases (codec : AtomicFile.Codec StateFile) (customer : String)
    (target : TenantState) (actor : Actor) (reason : String) (now : ℕ) (writes : Bool)
    (s : UnwindSystem) :
    s.transition codec customer target actor reason now writes = s ∨
      ∃ record : TenantRecord, record.state = target ∧
        record.reconcile = s.table.store.armed customer target now ∧
        s.transition codec customer target actor reason now writes =
          s.moved codec writes customer record := by
  unfold UnwindSystem.transition
  rcases TenantTable.transition_cases codec writes customer target actor reason now s.table with
    ⟨-, hsame⟩ | ⟨heq, -⟩
  · dsimp only
    split
    · rename_i hchanged
      exact absurd hchanged (hsame _ _)
    · exact .inl rfl
  · rw [heq]
    exact .inr ⟨_, rfl, rfl, rfl⟩

variable {target : TenantState}

theorem armed_open (htarget : target ≠ .active)
    {status : ReconcileStatus} (h : s.table.store.armed customer target now = some status) :
    status.isFinal = false := by
  unfold TenantStateStore.armed at h
  dsimp only at h
  split at h
  · rename_i hkept
    have hany := hkept.resolve_left htarget
    rw [h] at hany
    simpa using hany
  · cases h
    rfl

section

variable {record : TenantRecord} {writes : Bool}

theorem stopped_moved :
    (s.moved codec writes customer record).Stopped customer ↔ record.state ≠ .active := by
  simp [Stopped, moved, TenantTable.stateOf_insertRecord]

theorem reconcileOf_moved :
    (s.moved codec writes customer record).table.store.reconcileOf customer = record.reconcile := by
  simp [moved, TenantTable.reconcileOf_insertRecord]

theorem armed_active :
    s.table.store.armed customer .active now = s.table.store.reconcileOf customer := by
  simp [TenantStateStore.armed]

theorem only_moved : Only s (s.moved codec writes customer record) customer where
  up := rfl
  agree := by
    intro other hother
    refine ⟨TenantTable.lookup_insertRecord_of_ne hother, ?_, rfl⟩
    dsimp only [moved]
    split
    · exact Function.update_of_ne hother _ _
    · rfl
  jobs := fun _ _ => rfl
  kicks := fun other hother => by simp [moved, hother]
  claims := fun _ _ => Iff.rfl

theorem JobSound.moved {job : UnwindJob}
    (h : s.JobSound customer job) (hstate : record.state = target)
    (hreconcile : record.reconcile = s.table.store.armed customer target now)
    (horderly : target ≠ .active →
      ¬SawActive job.past ∧ ¬Listed job.past ∧ ¬Wrote job.past ∨
        s.Stopped customer ∧ s.Open customer) :
    (s.moved codec writes customer record).JobSound customer job := by
  have hreconcileOf : (s.moved codec writes customer record).table.store.reconcileOf customer =
      s.table.store.armed customer target now := reconcileOf_moved.trans hreconcile
  have hopen : target ≠ .active → (s.moved codec writes customer record).Open customer :=
    fun htarget status hstatus => armed_open htarget (hreconcileOf.symm.trans hstatus)
  have hreleased : target = .active → ((s.moved codec writes customer record).Open customer ↔
      s.Open customer) ∧ ((s.moved codec writes customer record).Final customer ↔
      s.Final customer) := by
    rintro rfl
    rw [armed_active] at hreconcileOf
    exact ⟨by rw [Open, Open, hreconcileOf], by rw [Final, Final, hreconcileOf]⟩
  refine ⟨by simp [UnwindSystem.moved], h.contract, h.listed_iff, h.looked_of_listed,
    fun hworking => ?_, fun hwrote => ?_, fun hlooked hstopped => ?_⟩
  · by_cases htarget : target = .active
    · exact (hreleased htarget).1.mpr (h.working hworking)
    · exact hopen htarget
  · by_cases htarget : target = .active
    · refine ⟨(hreleased htarget).2.mpr (h.wrote hwrote).1, fun hstopped => ?_⟩
      exact absurd (hstate.trans htarget) (stopped_moved.mp hstopped)
    · rcases horderly htarget with ⟨-, -, hunwritten⟩ | ⟨-, hstillOpen⟩
      · exact absurd hwrote hunwritten
      · exact absurd (h.wrote hwrote).1 (not_final_of_open hstillOpen)
  · have htarget : target ≠ .active := hstate ▸ stopped_moved.mp hstopped
    rcases horderly htarget with ⟨hunseen, hunlisted, -⟩ | ⟨hbefore, -⟩
    · refine ⟨hunseen, fun time htime => absurd (h.listed_iff.mpr ?_) hunlisted⟩
      rw [htime]
      rfl
    · have hstoppedAt : (s.moved codec writes customer record).stoppedAt = s.stoppedAt :=
        if_neg hbefore
      rw [hstoppedAt]
      exact h.looked hlooked hbefore

theorem Sound.transition (hcodec : codec.RoundTrip) (h : s.Sound codec)
    {actor : Actor} {reason : String}
    (horderly : s.Orderly (.transition customer target actor reason now writes)) :
    ({ s.transition codec customer target actor reason now writes with
      clock := s.clock + 1 } : UnwindSystem).Sound codec := by
  rcases transition_cases codec customer target actor reason now writes s with
    hsame | ⟨record, hstate, hreconcile, hmoved⟩
  · rw [hsame]
    exact h.tick
  · rw [hmoved]
    have hopen : record.state ≠ .active →
        (s.moved codec writes customer record).Open customer := by
      intro hstopped status hstatus
      exact armed_open (hstate ▸ hstopped)
        (hreconcile.symm.trans (reconcileOf_moved.symm.trans hstatus))
    have hpath : (s.moved codec writes customer record).table.store.path.isSome := by
      simpa [UnwindSystem.moved] using h.path
    refine h.of_only customer only_moved.tick (TenantTable.honest_insertRecord hcodec) hpath
      (Nat.le_succ _) ?_
      (fun hstopped => .inr (hopen (stopped_moved.mp hstopped)))
      (fun _ _ _ => .inr (.inl List.mem_cons_self)) (fun _ => ?_) fun job hjob => ?_
    · dsimp only [UnwindSystem.moved]
      split
      · rw [Function.update_self]
        exact Nat.lt_succ_self _
      · exact Nat.lt_succ_of_lt (h.before customer)
    · simp [UnwindSystem.moved]
    · have hsound : (s.moved codec writes customer record).JobSound customer job :=
        (h.jobs customer job hjob).moved hstate hreconcile fun htarget => horderly htarget job hjob
      exact hsound.of_agree ⟨rfl, rfl, rfl⟩

end

/-! ### Jobs -/

def asked (clock : ℕ) (job : UnwindJob) (q : JobQuery) (r : q.Answer)
    (next : q.Answer → JobProgram Unit) : UnwindJob :=
  { job with
    program := next r
    past := job.past ++ [⟨q, r⟩]
    listedAt := firstListing clock job.listedAt q }

section

variable {job : UnwindJob} {q : JobQuery} {next : q.Answer → JobProgram Unit}
  {answers : (q : JobQuery) → q.Answer}

theorem JobSound.contract_ask (h : s.JobSound customer job) (hprogram : job.program = .ask q next) :
    Contract job.canList job.past q ∧ ∀ r, (next r).Follows (Contract job.canList)
      (job.past ++ [⟨q, r⟩]) fun now _ => Wrote now := by
  have hcontract := h.contract
  rw [hprogram] at hcontract
  exact hcontract

theorem marks_of_not_update (hq : ∀ f, q ≠ .updateReconcile f) (past : List JobEvent)
    (r : q.Answer) :
    (Working (past ++ [⟨q, r⟩]) ↔ Working past) ∧ (Wrote (past ++ [⟨q, r⟩]) ↔ Wrote past) := by
  have hno : ∀ f, (⟨q, r⟩ : JobEvent) ≠ ⟨.updateReconcile f, ()⟩ := fun f heq =>
    hq f (congrArg Sigma.fst heq)
  simp [Working, started_append, wrote_append, hno]

theorem JobSound.silent (h : s.JobSound customer job) {later : UnwindJob} {event : JobEvent}
    (hcontract : later.program.Follows (Contract job.canList) (job.past ++ [event])
      fun now _ => Wrote now)
    (hworking : Working (job.past ++ [event]) ↔ Working job.past)
    (hwrote : Wrote (job.past ++ [event]) ↔ Wrote job.past)
    (hlook : ∀ state, event ≠ ⟨.stateOf, state⟩)
    (hlist : ∀ venue answer, event ≠ ⟨.listOpen venue, answer⟩)
    (hlater : later = { later with
      canList := job.canList, past := job.past ++ [event], listedAt := job.listedAt }) :
    s.JobSound customer later := by
  have hlooked : Looked (job.past ++ [event]) ↔ Looked job.past := by simp [looked_append, hlook]
  have hsaw : SawActive (job.past ++ [event]) ↔ SawActive job.past := by
    simp [sawActive_append, hlook]
  have hlisted : Listed (job.past ++ [event]) ↔ Listed job.past := by simp [listed_append, hlist]
  rw [hlater]
  refine ⟨h.record, hcontract, hlisted.trans h.listed_iff, fun hl => ?_, fun hw => ?_,
    fun hw => ?_, fun hl hstopped => ?_⟩
  · exact hlooked.mpr (h.looked_of_listed (hlisted.mp hl))
  · exact h.working (hworking.mp hw)
  · exact h.wrote (hwrote.mp hw)
  · rw [hsaw]
    exact h.looked (hlooked.mp hl) hstopped

theorem JobSound.asked (h : s.JobSound customer job) (hprogram : job.program = .ask q next)
    (hq : ∀ f, q ≠ .updateReconcile f) (hbefore : s.stoppedAt customer < s.clock) :
    s.JobSound customer (asked s.clock job q (s.answer customer answers q) next) := by
  obtain ⟨hallowed, hnext⟩ := h.contract_ask hprogram
  obtain ⟨hworking, hwrote⟩ := marks_of_not_update hq job.past (s.answer customer answers q)
  have hcontract := hnext (s.answer customer answers q)
  have hseen : SawActive job.past → Looked job.past := fun hsaw => ⟨_, hsaw⟩
  cases q with
  | updateReconcile f => exact absurd rfl (hq f)
  | stateOf =>
    have hlisted : Listed (job.past ++ [⟨.stateOf, s.answer customer answers .stateOf⟩]) ↔
        Listed job.past := by simp [listed_append]
    refine ⟨h.record, hcontract, hlisted.trans h.listed_iff, fun hl => ?_, fun hw => ?_,
      fun hw => ?_, fun _ hstopped => ⟨fun hsaw => ?_, fun time htime => ?_⟩⟩
    · exact (h.looked_of_listed (hlisted.mp hl)).append _
    · exact h.working (hworking.mp hw)
    · exact h.wrote (hwrote.mp hw)
    · rcases sawActive_append.mp hsaw with hearlier | hnow
      · exact (h.looked (hseen hearlier) hstopped).1 hearlier
      · have hactive : s.table.store.stateOf customer = .active := by
          simpa [UnwindSystem.answer] using hnow
        exact hstopped hactive
    · have hl : Listed job.past := h.listed_iff.mpr (Option.isSome_iff_exists.mpr ⟨time, htime⟩)
      exact (h.looked (h.looked_of_listed hl) hstopped).2 time htime
  | listOpen venue =>
    have hlooked : Looked job.past := hallowed.2
    refine ⟨h.record, hcontract, ?_, fun _ => hlooked.append _, fun hw => ?_, fun hw => ?_,
      fun _ hstopped => ⟨fun hsaw => ?_, fun time htime => ?_⟩⟩
    · refine ⟨fun _ => ?_, fun _ => listed_append.mpr (.inr ⟨venue, _, rfl⟩)⟩
      simp [UnwindSystem.asked, firstListing]
    · exact h.working (hworking.mp hw)
    · exact h.wrote (hwrote.mp hw)
    · rcases sawActive_append.mp hsaw with hearlier | hnow
      · exact (h.looked hlooked hstopped).1 hearlier
      · simp at hnow
    · cases hfirst : job.listedAt with
      | none =>
        simp only [UnwindSystem.asked, firstListing, hfirst, Option.none_or,
          Option.some.injEq] at htime
        exact htime ▸ hbefore
      | some first =>
        simp only [UnwindSystem.asked, firstListing, hfirst, Option.some_or,
          Option.some.injEq] at htime
        exact htime ▸ (h.looked hlooked hstopped).2 first hfirst
  | nowUnix => exact h.silent hcontract hworking hwrote (by simp) (by simp) rfl
  | cancel venue orders => exact h.silent hcontract hworking hwrote (by simp) (by simp) rfl
  | sleep seconds => exact h.silent hcontract hworking hwrote (by simp) (by simp) rfl
  | writeBundle bundle => exact h.silent hcontract hworking hwrote (by simp) (by simp) rfl

def updated (codec : AtomicFile.Codec StateFile) (writes : Bool) (now : ℕ) (customer : String)
    (job : UnwindJob) (f : ReconcileStatus → ReconcileStatus) (s : UnwindSystem) : UnwindSystem :=
  { s with
    table := (s.table.updateReconcile codec writes customer f now).2
    writtenBy := Function.update s.writtenBy customer
      (some { listedAt := job.listedAt, canList := job.canList }) }

section

variable {writes : Bool} {now : ℕ} {f : ReconcileStatus → ReconcileStatus}

theorem stopped_updated :
    (s.updated codec writes now customer job f).Stopped customer ↔ s.Stopped customer := by
  rw [Stopped, Stopped, updated, TenantTable.stateOf_updateReconcile]

theorem reconcileOf_updated (codec : AtomicFile.Codec StateFile) (writes : Bool) (now : ℕ)
    (job : UnwindJob) (f : ReconcileStatus → ReconcileStatus)
    (hrecord : (s.table.store.inner.lookup customer).isSome) :
    ((s.updated codec writes now customer job f).table.store.inner.lookup customer).isSome ∧
      (s.updated codec writes now customer job f).table.store.reconcileOf customer =
        some (f ((s.table.store.reconcileOf customer).getD (.pending now))) := by
  unfold updated
  rcases TenantTable.updateReconcile_cases codec writes customer f now s.table with
    ⟨hnone, -⟩ | ⟨record, hlookup, heq⟩
  · rw [hnone] at hrecord
    cases hrecord
  · rw [heq]
    simp [TenantStateStore.reconcileOf, hlookup]

theorem JobSound.updated (h : s.JobSound customer job) (codec : AtomicFile.Codec StateFile)
    (writes : Bool) (now : ℕ) {next : Unit → JobProgram Unit}
    (hprogram : job.program = .ask (.updateReconcile f) next) :
    (s.updated codec writes now customer job f).JobSound customer
        (UnwindSystem.asked s.clock job (.updateReconcile f) () next) ∧
      ((s.updated codec writes now customer job f).Stopped customer →
        (s.updated codec writes now customer job f).Attended customer ∨
          (s.updated codec writes now customer job f).Open customer) := by
  set later := s.updated codec writes now customer job f with hlater
  obtain ⟨⟨hunwritten, hkind⟩, hnext⟩ := h.contract_ask hprogram
  obtain ⟨hrecord, hstatus⟩ := reconcileOf_updated codec writes now job f h.record
  have hlooked : Looked (job.past ++ [⟨.updateReconcile f, ()⟩]) ↔ Looked job.past := by
    simp [looked_append]
  have hlisted : Listed (job.past ++ [⟨.updateReconcile f, ()⟩]) ↔ Listed job.past := by
    simp [listed_append]
  have hsaw : SawActive (job.past ++ [⟨.updateReconcile f, ()⟩]) ↔ SawActive job.past := by
    simp [sawActive_append]
  have hseen : SawActive job.past → Looked job.past := fun hsaw => ⟨_, hsaw⟩
  have hlook : Looked (job.past ++ [⟨.updateReconcile f, ()⟩]) →
      later.Stopped customer →
      ¬SawActive (job.past ++ [⟨.updateReconcile f, ()⟩]) ∧
        ∀ time, job.listedAt = some time → s.stoppedAt customer < time := by
    intro hl hstopped
    rw [hsaw]
    exact h.looked (hlooked.mp hl) (stopped_updated.mp hstopped)
  -- an update that does not close leaves the unwind open
  have hopens : ¬ClosesStatus f → later.Open customer →
      later.JobSound customer
          (UnwindSystem.asked s.clock job (.updateReconcile f) () next) ∧
        (later.Stopped customer →
          later.Attended customer ∨
            later.Open customer) := by
    intro hnot hopen
    refine ⟨⟨hrecord, hnext (), hlisted.trans h.listed_iff, fun hl => ?_, fun _ => hopen,
      fun hw => ?_, hlook⟩, fun _ => .inr hopen⟩
    · exact hlooked.mpr (h.looked_of_listed (hlisted.mp hl))
    · rcases wrote_append.mp hw with hearlier | ⟨g, hg, hcloses⟩
      · exact absurd hearlier hunwritten
      · cases hg
        exact absurd hcloses hnot
  rcases hkind with ⟨hopenStatus, -⟩ | ⟨hkeeps, hstarted⟩ | ⟨hcloses, hreason⟩
  · refine hopens hopenStatus.not_closesStatus fun status hsome => ?_
    rw [hstatus] at hsome
    cases hsome
    exact hopenStatus _
  · refine hopens hkeeps.not_closesStatus fun status hsome => ?_
    have hstill := h.working ⟨hstarted, hunwritten⟩
    rw [hstatus] at hsome
    cases hsome
    rw [hkeeps]
    cases hold : s.table.store.reconcileOf customer with
    | none => rfl
    | some old => exact hstill old hold
  · have hfinal : later.Final customer :=
      ⟨_, hstatus, hcloses _⟩
    have hattended : later.Stopped customer →
        later.Attended customer := by
      intro hstopped
      have hwriter : later.writtenBy customer =
          some { listedAt := job.listedAt, canList := job.canList } := Function.update_self ..
      rcases hreason with hsawActive | hl | hnothing
      · exact absurd hsawActive (h.looked (hseen hsawActive) (stopped_updated.mp hstopped)).1
      · obtain ⟨time, htime⟩ := Option.isSome_iff_exists.mp (h.listed_iff.mp hl)
        refine .inl ⟨hfinal, _, hwriter, time, htime, ?_⟩
        exact (h.looked (h.looked_of_listed hl) (stopped_updated.mp hstopped)).2 time htime
      · exact .inr ⟨hfinal, _, hwriter, hnothing⟩
    have hwrote : Wrote (job.past ++ [⟨.updateReconcile f, ()⟩]) :=
      wrote_append.mpr (.inr ⟨f, rfl, hcloses⟩)
    refine ⟨⟨hrecord, hnext (), hlisted.trans h.listed_iff, fun hl => ?_, fun hw => ?_,
      fun _ => ⟨hfinal, hattended⟩, hlook⟩, fun hstopped => .inl (hattended hstopped)⟩
    · exact hlooked.mpr (h.looked_of_listed (hlisted.mp hl))
    · exact absurd hwrote hw.2

theorem honest_updated (hcodec : codec.RoundTrip) (h : s.table.Honest codec) :
    (s.updated codec writes now customer job f).table.Honest codec := by
  have hcall : (s.table.call codec (.updateReconcile customer f now writes)).2.Honest codec :=
    TenantTable.honest_call hcodec h
  exact hcall

end

theorem Sound.jobStep (hcodec : codec.RoundTrip) (h : s.Sound codec) (customer : String)
    (answers : (q : JobQuery) → q.Answer) (now : ℕ) (writes : Bool) :
    ({ s.jobStep codec customer answers now writes with clock := s.clock + 1 } :
      UnwindSystem).Sound codec := by
  have honly : Only s (s.jobStep codec customer answers now writes) customer := only_jobStep
  unfold UnwindSystem.jobStep at honly ⊢
  cases hjob : s.jobs customer with
  | none => exact h.tick
  | some job =>
    have hsound := h.jobs customer job hjob
    cases hprogram : job.program with
    | done u =>
      simp only [hprogram]
      exact h.tick
    | ask q next =>
      simp only [hjob, hprogram] at honly ⊢
      by_cases hq : ∃ f, q = .updateReconcile f
      · obtain ⟨f, rfl⟩ := hq
        obtain ⟨hlater, hattended⟩ := hsound.updated codec writes now hprogram
        have hhonest : (s.updated codec writes now customer job f).table.Honest codec :=
          honest_updated hcodec h.honest
        have hpath : (s.updated codec writes now customer job f).table.store.path.isSome :=
          (congrArg Option.isSome TenantTable.path_updateReconcile).trans h.path
        refine h.of_only customer honly.tick hhonest hpath (Nat.le_succ _)
          (Nat.lt_succ_of_lt (h.before customer)) hattended (fun _ _ _ => .inl (by simp))
          (fun _ => hlater.record) fun later hsome => ?_
        dsimp only at hsome
        rw [Function.update_self, Option.some.injEq] at hsome
        subst hsome
        exact hlater.of_agree ⟨rfl, rfl, rfl⟩
      · have hno : ∀ f, q ≠ .updateReconcile f := fun f hf => hq ⟨f, hf⟩
        have htable : effect codec customer now writes s.table q = s.table := by
          cases q <;> first | rfl | exact absurd rfl (hno _)
        have hwriter : Function.update s.writtenBy customer
            (writer job (s.writtenBy customer) q) = s.writtenBy := by
          cases q <;> first | exact Function.update_eq_self .. | exact absurd rfl (hno _)
        rw [htable, hwriter] at honly ⊢
        refine h.of_moves honly (fun _ _ => .inl (by simp)) (h.claimed customer)
          fun later hsome => ?_
        rw [Function.update_self, Option.some.injEq] at hsome
        subst hsome
        exact hsound.asked hprogram hno (h.before customer)

end

/-! ### Restarts -/

section

variable {table : TenantTable}

structure Kept (codec : AtomicFile.Codec StateFile) (table later : TenantTable) : Prop where
  honest : later.Honest codec
  path : later.store.path = table.store.path
  stateOf : ∀ customer, later.store.stateOf customer = table.store.stateOf customer
  lookup : ∀ customer, table.store.stateOf customer ≠ .active →
    later.store.inner.lookup customer = table.store.inner.lookup customer

theorem kept_closeOrphan (hcodec : codec.RoundTrip) (h : table.Honest codec) (writes : Bool)
    (now : ℕ) (closed : String) : Kept codec table (closeOrphan codec writes now table closed) := by
  unfold closeOrphan
  split
  · rename_i horphan
    have hactive : table.store.stateOf closed = .active := by
      simp only [isOrphan, decide_eq_true_eq] at horphan
      exact horphan.1
    have hcall : (table.call codec (.updateReconcile closed (markOrphan now) now writes)).2.Honest
        codec := TenantTable.honest_call hcodec h
    refine ⟨hcall, TenantTable.path_updateReconcile, fun _ => TenantTable.stateOf_updateReconcile,
      fun customer hstopped => TenantTable.lookup_updateReconcile_of_ne ?_⟩
    rintro rfl
    exact hstopped hactive
  · exact ⟨h, rfl, fun _ => rfl, fun _ _ => rfl⟩

theorem kept_closeOrphans (hcodec : codec.RoundTrip) (h : table.Honest codec) (writes : Bool)
    (now : ℕ) (closed : List String) :
    Kept codec table (closed.foldl (closeOrphan codec writes now) table) := by
  induction closed generalizing table with
  | nil => exact ⟨h, rfl, fun _ => rfl, fun _ _ => rfl⟩
  | cons first closed ih =>
    rw [List.foldl_cons]
    have hfirst := kept_closeOrphan hcodec h writes now first
    have hrest := ih hfirst.honest
    refine ⟨hrest.honest, hrest.path.trans hfirst.path,
      fun customer => (hrest.stateOf customer).trans (hfirst.stateOf customer),
      fun customer hstopped => ?_⟩
    have hstill : (closeOrphan codec writes now table first).store.stateOf customer ≠ .active := by
      rw [hfirst.stateOf]
      exact hstopped
    rw [hrest.lookup customer hstill, hfirst.lookup customer hstopped]

theorem mem_customers {customer : String} (h : (table.store.inner.lookup customer).isSome) :
    customer ∈ customers table := by
  rw [customers, Finset.mem_sort, Finmap.mem_keys]
  exact Finmap.lookup_isSome.mp h

end

theorem Sound.down (h : s.Sound codec) :
    ({ s.down with clock := s.clock + 1 } : UnwindSystem).Sound codec where
  honest := h.honest
  path := h.path
  before := fun customer => Nat.lt_succ_of_lt (h.before customer)
  attended := h.attended
  pending := by simp [UnwindSystem.down]
  claimed := by simp [UnwindSystem.down]
  jobs := by simp [UnwindSystem.down]

theorem Sound.resumeAll (hcodec : codec.RoundTrip) (h : s.Sound codec) {table : TenantTable}
    (hhonest : table.Honest codec) (hpath : table.store.path.isSome)
    (hinner : table.store.inner = s.table.store.inner) (deployment : Deployment) (writes : Bool)
    (now : ℕ) :
    ({ UnwindSystem.resumeAll codec writes now { s.down with table, up := true, deployment } with
      clock := s.clock + 1 } : UnwindSystem).Sound codec := by
  set later := UnwindSystem.resumeAll codec writes now { s.down with table, up := true, deployment }
    with hlater
  obtain ⟨hhonest', hpath', hstate, hlookup⟩ :=
    kept_closeOrphans hcodec hhonest writes now (customers table)
  -- what is said about a stopped customer is what was said before
  have hagree : ∀ customer, later.Stopped customer → Agree s later customer := by
    intro customer hstopped
    have hbefore : table.store.stateOf customer ≠ .active := (hstate customer) ▸ hstopped
    refine ⟨(hlookup customer hbefore).trans (by rw [hinner]), rfl, ?_⟩
    have hno : isOrphan table customer = false := by simp [isOrphan, hbefore]
    simp [hlater, UnwindSystem.resumeAll, UnwindSystem.down, hno]
  refine ⟨hhonest', hpath' ▸ hpath, fun customer => Nat.lt_succ_of_lt (h.before customer),
    fun customer hstopped => ?_, fun _ customer hstopped hopen => ?_, ?_, ?_⟩
  · have hsame := hagree customer hstopped
    exact (h.attended customer (hsame.stopped_iff.mp hstopped)).imp hsame.attended_iff.mpr
      hsame.open_iff.mpr
  · refine .inr (.inl (List.mem_filter.mpr ⟨mem_customers ?_, ?_⟩))
    · exact isSome_lookup_of_stopped hstopped
    · exact isReconcileCandidate_iff.mpr ⟨hstopped, hopen⟩
  · simp [hlater, UnwindSystem.resumeAll, UnwindSystem.down]
  · simp [hlater, UnwindSystem.resumeAll, UnwindSystem.down]

variable {store : TenantStateStore}

theorem inner_of_load {table : TenantTable} {reads : Bool}
    {path : String} (hfile : table.OnFile codec)
    (hload : TenantStateStore.load codec reads path table.file = some store) :
    store.inner = table.store.inner := by
  obtain ⟨here, hhere, hinner⟩ := hfile path
  obtain ⟨there, hthere, hinner'⟩ := TenantTable.onFile_of_load hload path
  obtain rfl : here = there := Option.mem_unique hhere hthere
  rw [← hinner', hinner]

theorem path_of_load {reads : Bool} {path : String}
    {file : Option Bytes} (hload : TenantStateStore.load codec reads path file = some store) :
    store.path = some path := by
  unfold TenantStateStore.load at hload
  split at hload
  · cases hload
    rfl
  · cases hload
    rfl
  · cases hload

theorem Sound.restart (hcodec : codec.RoundTrip) (h : s.Sound codec)
    (hdurable : s.table.store.durable = true) (deployment : Deployment) (path : String)
    (reads writes : Bool) (now : ℕ) :
    ({ s.restart codec deployment path reads writes now with clock := s.clock + 1 } :
      UnwindSystem).Sound codec := by
  unfold UnwindSystem.restart
  split
  · exact h.down
  · rename_i store hload
    have hinner : store.inner = s.table.store.inner :=
      inner_of_load (h.honest h.path hdurable) hload
    have hpath := path_of_load hload
    have hboots : (TenantTable.mk store s.table.file).Honest codec :=
      TenantTable.honest_of_boots (.inr ⟨path, reads, hload⟩)
    have hprobed : ((TenantTable.mk store s.table.file).call codec (.bootProbe writes)).2.Honest
        codec := TenantTable.honest_call hcodec hboots
    dsimp only
    split
    · rename_i hok
      refine Sound.resumeAll hcodec h hprobed ?_ ?_ deployment writes now
      · simp only [TenantTable.call, TenantTable.bootProbe, hpath]
        split <;> simp [hpath]
      · simp only [TenantTable.call, TenantTable.bootProbe, hpath]
        split <;> exact hinner
    · exact h.down

/-! ### Whole runs -/

theorem Sound.running (h : s.Sound codec) {t : UnwindSystem}
    (ht : ({ t with clock := s.clock + 1 } : UnwindSystem).Sound codec) :
    ({ (if s.up = true then t else s) with clock := s.clock + 1 } : UnwindSystem).Sound codec := by
  split
  · exact ht
  · exact h.tick

theorem Sound.step (hcodec : codec.RoundTrip) (h : s.Sound codec) (input : UnwindInput)
    (horderly : s.Orderly input) : (UnwindSystem.step codec input s).2.Sound codec := by
  cases input with
  | restart deployment path reads writes now =>
    exact h.restart hcodec horderly deployment path reads writes now
  | transition customer target actor reason now writes =>
    exact h.running (h.transition hcodec horderly)
  | kick customer => exact h.running (h.kick customer)
  | kickReads customer => exact h.running (h.kickReads customer)
  | kickClaims customer => exact h.running (h.kickClaims customer)
  | jobStep customer answers now writes =>
    exact h.running (h.jobStep hcodec customer answers now writes)
  | jobEnds customer => exact h.running (h.jobEnds customer)

theorem sound_of_mem_reached (hcodec : codec.RoundTrip) {deployment : Deployment} {path : String}
    {inputs : List UnwindInput}
    (horderly : ∀ step ∈ Run.steps (UnwindSystem.step codec) (start deployment path) inputs,
      step.before.Orderly step.input)
    (hs : s ∈ reached codec (start deployment path) inputs) : s.Sound codec := by
  rcases List.mem_cons.mp hs with rfl | hmem
  · exact sound_start deployment path
  · obtain ⟨step, hstep, rfl⟩ := List.mem_map.mp hmem
    refine (Run.invariant (I := Sound codec) (sound_start deployment path)
      (fun later hlater hbefore => ?_) step hstep).2
    have hnext := (Run.mem_steps hlater).2
    have hafter : later.after = (UnwindSystem.step codec later.input later.before).2 := by
      rw [hnext]
    rw [hafter]
    exact hbefore.step hcodec later.input (horderly later hlater)

/-- In every run whose stops and restarts are orderly, whoever acts in between and whatever jobs
are answered: where a customer is stopped and no job for it is running or about to be started, its
status is final, and it was written by a job that listed a venue for the first time after the
customer was stopped last, or by one that had no token or no supported venue and so could list
nothing. -/
theorem unwind_always_happens (hcodec : codec.RoundTrip) (deployment : Deployment) (path : String)
    (inputs : List UnwindInput)
    (horderly : ∀ step ∈ Run.steps (UnwindSystem.step codec) (start deployment path) inputs,
      step.before.Orderly step.input) :
    ∀ s ∈ reached codec (start deployment path) inputs, ∀ customer, s.Stopped customer →
      s.Quiet customer → s.Unwound customer ∨ s.Unreachable customer := by
  intro s hs customer hstopped hquiet
  exact (sound_of_mem_reached hcodec horderly hs).attended_of_quiet hstopped hquiet

def after (codec : AtomicFile.Codec StateFile) (s : UnwindSystem) (inputs : List UnwindInput) :
    UnwindSystem :=
  inputs.foldl (fun s input => (UnwindSystem.step codec input s).2) s

theorem after_mem_reached (s : UnwindSystem) (inputs : List UnwindInput) :
    s.after codec inputs ∈ reached codec s inputs := by
  induction inputs generalizing s with
  | nil => exact List.mem_cons_self
  | cons input inputs ih =>
    refine List.mem_cons_of_mem _ ?_
    rw [Run.steps, List.map_cons]
    exact ih (UnwindSystem.step codec input s).2

namespace Sample

def deployment (hasToken : Bool) : Deployment where
  hasToken := fun _ => hasToken
  blobs := ["acme/okx"]

def stopped : List UnwindInput :=
  [.transition "acme" .halted .client "self-halt" 1 false, .kickReads "acme", .kickClaims "acme"]

def emptyBooks : (q : JobQuery) → q.Answer
  | .nowUnix => 1
  | .stateOf => .halted
  | .updateReconcile _ => ()
  | .listOpen _ => (.ok [], [])
  | .cancel _ _ => ([], [])
  | .sleep _ => ()
  | .writeBundle _ => none

def jobStep (writes : Bool) : UnwindInput := .jobStep "acme" emptyBooks 1 writes

def unwound : List UnwindInput :=
  stopped ++ List.replicate 8 (jobStep false) ++ [jobStep true, .jobEnds "acme"]

def unwoundFile : StateFile where
  version := 1
  tenants := (∅ : Tenants).insert "acme"
    { state := .halted, sinceUnix := 1, actor := .client, reason := "self-halt",
      reconcile := some
        { phase := .done, startedUnix := 1, finishedUnix := some 1, rounds := 1,
          venues := [("okx", { resting := some 0 })] } }

def unwoundText : Bytes :=
  Text.bytes <| "\x7b\n  \"version\": 1,\n  \"tenants\": \x7b\n    \"acme\": \x7b\n" ++
    "      \"state\": \"halted\",\n      \"since_unix\": 1,\n      \"by\": \"client\",\n" ++
    "      \"reason\": \"self-halt\",\n      \"reconcile\": \x7b\n        \"phase\": \"done\",\n" ++
    "        \"started_unix\": 1,\n        \"finished_unix\": 1,\n        \"rounds\": 1,\n" ++
    "        \"venues\": \x7b\n          \"okx\": \x7b\n            \"found\": 0,\n" ++
    "            \"cancelled\": 0,\n            \"resting\": 0,\n            \"error\": null,\n" ++
    "            \"unsupported\": false\n          \x7d\n        \x7d,\n" ++
    "        \"incident_path\": null\n      \x7d\n    \x7d\n  \x7d\n\x7d"

def fileCodec : AtomicFile.Codec StateFile := .ofTable [(unwoundFile, unwoundText)]

def path : String := "/var/lib/signer/tenant-state.json"

def forgotten : List UnwindInput :=
  [.transition "acme" .active .operator "back" 2 false,
    .transition "acme" .halted .client "again" 3 false, .restart (deployment true) path true true 4]

theorem roundTrip_fileCodec : fileCodec.RoundTrip :=
  AtomicFile.Codec.ofTable_roundTrip (List.nodup_singleton _)

theorem orderly_unwound : ∀ step ∈ Run.steps (UnwindSystem.step fileCodec)
    (start (deployment true) path) unwound, step.before.Orderly step.input := by
  intro step hstep
  have hrest : ∀ input ∈ unwound.tail, ∀ s : UnwindSystem, s.Orderly input := by
    intro input hinput s
    simp only [unwound, stopped, jobStep, List.cons_append, List.nil_append, List.tail_cons,
      List.mem_cons, List.mem_append, List.mem_replicate, List.not_mem_nil, or_false] at hinput
    rcases hinput with rfl | rfl | ⟨-, rfl⟩ | rfl | rfl <;> exact trivial
  rcases List.mem_cons.mp (show step ∈ _ :: Run.steps _ _ unwound.tail from hstep) with rfl | hlater
  · intro _ job hjob
    exact absurd hjob (by simp [start])
  · exact hrest _ (Run.mem_steps hlater).1 _

theorem quiet_of_eval {s : UnwindSystem} {customer : String}
    (h : s.up && (s.jobs customer).isNone && decide (customer ∉ s.kicks ∧ customer ∉ s.claims)) :
    s.Quiet customer := by
  simp only [Bool.and_eq_true, Option.isNone_iff_eq_none, decide_eq_true_eq] at h
  exact ⟨h.1.1, h.1.2, h.2⟩

theorem not_unwound_of_eval {s : UnwindSystem} {customer : String} (writer : Writer)
    (hwriter : s.writtenBy customer = some writer)
    (hlisted : ∀ time, writer.listedAt = some time → ¬s.stoppedAt customer < time) :
    ¬s.Unwound customer := by
  rintro ⟨-, other, hother, time, htime, hlate⟩
  obtain rfl : other = writer := Option.mem_unique hother hwriter
  exact hlisted time htime hlate

end Sample

/-- A stop, a kick, and a job that finds empty books. -/
theorem unwind_always_happens_empty_books :
    let s := (start (Sample.deployment true) Sample.path).after Sample.fileCodec Sample.unwound
    s.Stopped "acme" ∧ s.Quiet "acme" ∧ (s.Unwound "acme" ∨ s.Unreachable "acme") := by
  intro s
  have hstopped : s.Stopped "acme" := by
    unfold Stopped
    decide +kernel
  have hquiet : s.Quiet "acme" := Sample.quiet_of_eval (by decide +kernel)
  exact ⟨hstopped, hquiet, unwind_always_happens Sample.roundTrip_fileCodec (Sample.deployment true)
    Sample.path Sample.unwound Sample.orderly_unwound s (after_mem_reached _ _) "acme" hstopped
    hquiet⟩

/-- Without a token the job writes its last word without a listing. With one, a stop that the disk
did not take is forgotten by a restart, and the last word of the stop before it stands. -/
theorem stopped_quiet_not_unwound :
    (∃ s ∈ reached Sample.fileCodec (start (Sample.deployment false) Sample.path)
        (Sample.stopped ++ [Sample.jobStep false, Sample.jobStep true, .jobEnds "acme"]),
      s.Stopped "acme" ∧ s.Quiet "acme" ∧ ¬s.Unwound "acme") ∧
    ∃ s ∈ reached Sample.fileCodec (start (Sample.deployment true) Sample.path)
        (Sample.unwound ++ Sample.forgotten),
      s.Stopped "acme" ∧ s.Quiet "acme" ∧ ¬s.Unwound "acme" := by
  refine ⟨⟨_, after_mem_reached _ _, by unfold Stopped; decide +kernel,
    Sample.quiet_of_eval (by decide +kernel), ?_⟩,
    ⟨_, after_mem_reached _ _, by unfold Stopped; decide +kernel,
    Sample.quiet_of_eval (by decide +kernel), ?_⟩⟩
  · exact Sample.not_unwound_of_eval { listedAt := none, canList := false } (by decide +kernel)
      fun time htime => absurd htime (by simp)
  · refine Sample.not_unwound_of_eval { listedAt := some 7, canList := true } (by decide +kernel)
      fun time htime => ?_
    obtain rfl : 7 = time := by simpa using htime
    decide +kernel

end Signer.Gateway.UnwindSystem
