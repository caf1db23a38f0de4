import Signer.Gateway.ReconcileRuns

/-!
# What an unwind job does to its customer

The marks a job leaves on the status of its customer, and when.
-/

namespace Signer.Gateway

open Program

/-! ### The marks a job leaves -/

/-- An update after which the status is not final. -/
def OpensStatus (f : ReconcileStatus → ReconcileStatus) : Prop := ∀ s, (f s).isFinal = false

def KeepsStatus (f : ReconcileStatus → ReconcileStatus) : Prop := ∀ s, (f s).isFinal = s.isFinal

/-- An update that writes a final status. -/
def ClosesStatus (f : ReconcileStatus → ReconcileStatus) : Prop := ∀ s, (f s).isFinal = true

def Started (past : List JobEvent) : Prop := ∃ f, ⟨.updateReconcile f, ()⟩ ∈ past ∧ OpensStatus f

def Looked (past : List JobEvent) : Prop := ∃ state, ⟨.stateOf, state⟩ ∈ past

def SawActive (past : List JobEvent) : Prop := ⟨.stateOf, TenantState.active⟩ ∈ past

def Listed (past : List JobEvent) : Prop := ∃ venue answer, ⟨.listOpen venue, answer⟩ ∈ past

def Wrote (past : List JobEvent) : Prop := ∃ f, ⟨.updateReconcile f, ()⟩ ∈ past ∧ ClosesStatus f

section

variable {past : List JobEvent} {event : JobEvent}

theorem started_append :
    Started (past ++ [event]) ↔
      Started past ∨ ∃ f, event = ⟨.updateReconcile f, ()⟩ ∧ OpensStatus f := by
  simp only [Started, List.mem_append, List.mem_singleton, or_and_right, exists_or,
    eq_comm (b := event)]

theorem looked_append :
    Looked (past ++ [event]) ↔ Looked past ∨ ∃ state, event = ⟨.stateOf, state⟩ := by
  simp only [Looked, List.mem_append, List.mem_singleton, exists_or, eq_comm (b := event)]

theorem sawActive_append :
    SawActive (past ++ [event]) ↔ SawActive past ∨ event = ⟨.stateOf, TenantState.active⟩ := by
  simp only [SawActive, List.mem_append, List.mem_singleton, eq_comm (b := event)]

theorem listed_append :
    Listed (past ++ [event]) ↔
      Listed past ∨ ∃ venue answer, event = ⟨.listOpen venue, answer⟩ := by
  simp only [Listed, List.mem_append, List.mem_singleton, exists_or, eq_comm (b := event)]

theorem wrote_append :
    Wrote (past ++ [event]) ↔
      Wrote past ∨ ∃ f, event = ⟨.updateReconcile f, ()⟩ ∧ ClosesStatus f := by
  simp only [Wrote, List.mem_append, List.mem_singleton, or_and_right, exists_or,
    eq_comm (b := event)]

/-- The job runs: its status is marked, and nothing final is written yet. -/
def Working (past : List JobEvent) : Prop := Started past ∧ ¬Wrote past

theorem Looked.append (h : Looked past) (event : JobEvent) : Looked (past ++ [event]) :=
  looked_append.mpr (.inl h)

theorem Listed.append (h : Listed past) (event : JobEvent) : Listed (past ++ [event]) :=
  listed_append.mpr (.inl h)

theorem Working.append (h : Working past) (event : JobEvent)
    (hevent : ∀ f, event = ⟨.updateReconcile f, ()⟩ → ¬ClosesStatus f) :
    Working (past ++ [event]) := by
  refine ⟨started_append.mpr (.inl h.1), fun hwrote => ?_⟩
  rcases wrote_append.mp hwrote with hbefore | ⟨f, hf, hcloses⟩
  · exact h.2 hbefore
  · exact hevent f hf hcloses

/-- What a job may ask when: it marks the status first, looks at the customer before it lists, and
writes a final status once, after it saw the customer released, listed a venue, or had none to list.
-/
def Contract (canList : Bool) (past : List JobEvent) : JobQuery → Prop
  | .stateOf => Working past
  | .listOpen _ => Working past ∧ Looked past
  | .updateReconcile f =>
    ¬Wrote past ∧ (OpensStatus f ∧ ¬Looked past ∨ KeepsStatus f ∧ Started past ∨
      ClosesStatus f ∧ (SawActive past ∨ Listed past ∨ canList = false))
  | _ => True

theorem KeepsStatus.not_closesStatus {f : ReconcileStatus → ReconcileStatus} (h : KeepsStatus f) :
    ¬ClosesStatus f := by
  intro hcloses
  have hpending := (h (.pending 0)).symm.trans (hcloses (.pending 0))
  exact absurd hpending (by decide)

theorem OpensStatus.not_closesStatus {f : ReconcileStatus → ReconcileStatus} (h : OpensStatus f) :
    ¬ClosesStatus f := by
  intro hcloses
  have hpending := (h (.pending 0)).symm.trans (hcloses (.pending 0))
  cases hpending

/-! ### The rounds keep the contract -/

variable {canList : Bool}

theorem unwindVenue_contract (venue : String) (u : Unwind) (clean : Bool)
    (hworking : Working past) (hlooked : Looked past) :
    (unwindVenue venue u clean).Follows (Contract canList) past fun now _ =>
      Working now ∧ Looked now ∧ Listed now := by
  have hlist : ∀ answer, Working (past ++ [⟨.listOpen venue, answer⟩]) ∧
      Looked (past ++ [⟨.listOpen venue, answer⟩]) ∧
      Listed (past ++ [⟨.listOpen venue, answer⟩]) := fun answer =>
    ⟨hworking.append _ (by simp), hlooked.append _, listed_append.mpr (.inr ⟨venue, answer, rfl⟩)⟩
  simp only [unwindVenue, follows_bind, follows_query]
  refine ⟨⟨hworking, hlooked⟩, ?_⟩
  rintro ⟨listed, raw⟩
  obtain ⟨hworking', hlooked', hlisted'⟩ := hlist (listed, raw)
  cases listed with
  | error e => exact ⟨hworking', hlooked', hlisted'⟩
  | ok orders =>
    dsimp only
    split
    · exact ⟨hworking', hlooked', hlisted'⟩
    · simp only [follows_bind, follows_query]
      refine ⟨hworking', fun state => ?_⟩
      have hworking'' := hworking'.append ⟨.stateOf, state⟩ (by simp)
      have hlooked'' := hlooked'.append ⟨.stateOf, state⟩
      have hlisted'' := hlisted'.append ⟨.stateOf, state⟩
      split
      · exact ⟨hworking'', hlooked'', hlisted''⟩
      · simp only [follows_bind, follows_query, follows_pure]
        refine ⟨True.intro, fun answer => ?_⟩
        exact ⟨hworking''.append _ (by simp), hlooked''.append _, hlisted''.append _⟩

theorem unwindVenues_contract (venues : List String) (u : Unwind) (clean : Bool)
    (hworking : Working past) (hlooked : Looked past) :
    (unwindVenues venues u clean).Follows (Contract canList) past fun now _ =>
      Working now ∧ Looked now ∧ (Listed past ∨ venues ≠ [] → Listed now) := by
  induction venues generalizing u clean past with
  | nil => exact ⟨hworking, hlooked, fun h => h.resolve_right (by simp)⟩
  | cons venue venues ih =>
    rw [unwindVenues, follows_bind]
    refine (unwindVenue_contract venue u clean hworking hlooked).mono fun now result h => ?_
    obtain ⟨hworking', hlooked', hlisted'⟩ := h
    cases result with
    | released u' => exact ⟨hworking', hlooked', fun _ => hlisted'⟩
    | complete u' clean' =>
      refine (ih u' clean' hworking' hlooked').mono fun later _ h => ?_
      exact ⟨h.1, h.2.1, fun _ => h.2.2 (.inl hlisted')⟩

def ReconcilePhase.Ends (phase : ReconcilePhase) : Prop :=
  phase = .done ∨ phase = .failed ∨ phase = .terminated

/-- The rounds may end. -/
def MayEnd (venues : List String) (past : List JobEvent) : Prop :=
  SawActive past ∨ Listed past ∨ venues = []

theorem MayEnd.append {venues : List String} (h : MayEnd venues past) (event : JobEvent) :
    MayEnd venues (past ++ [event]) :=
  h.imp (fun h => sawActive_append.mpr (.inl h)) (Or.imp_left fun h => h.append event)

theorem unwindRounds_contract (venues : List String) (left : ℕ) (u : Unwind)
    (hworking : Working past) (hend : left = 0 → MayEnd venues past) :
    (unwindRounds venues left u).Follows (Contract canList) past fun now result =>
      Working now ∧ result.1.Ends ∧ MayEnd venues now := by
  induction left generalizing u past with
  | zero => exact ⟨hworking, .inr (.inl rfl), hend rfl⟩
  | succ left ih =>
    simp only [unwindRounds, follows_bind, follows_query]
    refine ⟨hworking, fun state => ?_⟩
    have hworking' := hworking.append ⟨.stateOf, state⟩ (by simp)
    have hlooked : Looked (past ++ [⟨.stateOf, state⟩]) := looked_append.mpr (.inr ⟨state, rfl⟩)
    split
    · rename_i hactive
      subst hactive
      exact ⟨hworking', .inr (.inr rfl), .inl (sawActive_append.mpr (.inr rfl))⟩
    · rw [follows_bind]
      refine (unwindVenues_contract venues _ true hworking' hlooked).mono fun now result h => ?_
      obtain ⟨hnow, -, hlisted⟩ := h
      have hmay : MayEnd venues now := by
        by_cases hnone : venues = []
        · exact .inr (.inr hnone)
        · exact .inr (.inl (hlisted (.inr hnone)))
      cases result with
      | released u' => exact ⟨hnow, .inr (.inr rfl), hmay⟩
      | complete u' clean =>
        have hkeeps : KeepsStatus (.markRound u') := fun _ => rfl
        simp only [follows_bind, follows_query]
        refine ⟨⟨hnow.2, .inr (.inl ⟨hkeeps, hnow.1⟩)⟩, fun _ => ?_⟩
        have hlater := hnow.append ⟨.updateReconcile (.markRound u'), ()⟩ (by
          intro f hf
          cases hf
          exact hkeeps.not_closesStatus)
        have hmay' := hmay.append ⟨.updateReconcile (.markRound u'), ()⟩
        split_ifs with hgated hdone hfirst hsleep
        · exact ⟨hlater, .inr (.inl rfl), hmay'⟩
        · exact ⟨hlater, .inl rfl, hmay'⟩
        · exact ⟨hlater, .inl rfl, hmay'⟩
        · simp only [follows_bind, follows_query]
          refine ⟨True.intro, fun _ => ?_⟩
          exact ih _ (hlater.append _ (by simp)) fun _ => hmay'.append _
        · exact ih _ hlater fun _ => hmay'

/-! ### The whole job keeps the contract -/

theorem verdict_ends {venues : List String} {phase : ReconcilePhase} {u : Unwind}
    (h : phase.Ends) : (verdict venues phase u).1.Ends := by
  have hverified : (verifiedPhase venues phase u).Ends := by
    unfold verifiedPhase
    split
    · exact .inr (.inl rfl)
    · exact h
  unfold verdict
  dsimp only
  split
  · exact .inr (.inl rfl)
  · exact hverified

theorem finish_contract (customer : String) (venues : List String) (started : ℕ)
    (phase : ReconcilePhase) (u : Unwind) (hworking : Working past) (hphase : phase.Ends)
    (hend : SawActive past ∨ Listed past ∨ canList = false) :
    (finish customer venues started phase u).Follows (Contract canList) past fun now _ =>
      Wrote now := by
  have happend : ∀ {past : List JobEvent} (event : JobEvent),
      SawActive past ∨ Listed past ∨ canList = false →
        SawActive (past ++ [event]) ∨ Listed (past ++ [event]) ∨ canList = false :=
    fun event h => h.imp (fun h => sawActive_append.mpr (.inl h)) (Or.imp_left (·.append event))
  have hcloses : ∀ finished path, ClosesStatus (.markFinal (verdict venues phase u).1 finished u path
      (verdict venues phase u).2) := by
    intro finished path status
    exact decide_eq_true (verdict_ends hphase)
  simp only [finish, follows_bind, follows_query, follows_pure]
  refine ⟨True.intro, fun finished => ⟨hworking.append _ (by simp), fun state =>
    ⟨True.intro, fun path => ⟨⟨?_, .inr (.inr ⟨hcloses _ _, ?_⟩)⟩, fun _ => ?_⟩⟩⟩⟩
  · exact (((hworking.append _ (by simp)).append _ (by simp)).append _ (by simp)).2
  · exact happend _ (happend _ (happend _ hend))
  · exact wrote_append.mpr (.inr ⟨_, rfl, hcloses _ _⟩)

end

/-- Whether there is anything to list. -/
def canListVenues (venues : List String) (hasToken : Bool) : Bool :=
  hasToken && venues.any supported

theorem run_contract (customer : String) (venues : List String) :
    (run customer venues).Follows (Contract (canListVenues venues true)) [] fun now _ =>
      Wrote now := by
  have hopens : ∀ started, OpensStatus (.markRunning started (startingProgress venues)) :=
    fun _ _ => rfl
  simp only [run, follows_bind, follows_query]
  refine ⟨True.intro, fun started => ⟨⟨?_, .inl ⟨hopens started, ?_⟩⟩, fun _ => ?_⟩⟩
  · simp [Wrote]
  · simp [Looked]
  · have hworking : Working ([] ++ [⟨.nowUnix, started⟩] ++
        [⟨.updateReconcile (.markRunning started (startingProgress venues)), ()⟩]) := by
      refine ⟨started_append.mpr (.inr ⟨_, rfl, hopens started⟩), fun hwrote => ?_⟩
      rcases wrote_append.mp hwrote with hbefore | ⟨f, hf, hcloses⟩
      · simp [Wrote] at hbefore
      · cases hf
        exact (hopens started).not_closesStatus hcloses
    refine (unwindRounds_contract (venues.filter supported) maxRounds _ hworking
      (by simp [maxRounds])).mono ?_
    rintro now ⟨phase, u⟩ ⟨hnow, hends, hmay⟩
    refine finish_contract customer venues started phase u hnow hends ?_
    refine hmay.imp_right (Or.imp_right fun hnone => ?_)
    simpa [canListVenues, List.filter_eq_nil_iff] using hnone

/-- Whatever it is answered, a job keeps the contract and has written a final status in the end. -/
theorem job_contract (customer : String) (venues : List String) (hasToken : Bool) :
    (job customer venues hasToken).Follows (Contract (canListVenues venues hasToken)) []
      fun now _ => Wrote now := by
  unfold job
  split
  · rename_i htoken
    subst htoken
    rw [follows_bind]
    exact (run_contract customer venues).mono fun now _ hwrote => hwrote
  · rename_i htoken
    have hcloses : ∀ now, ClosesStatus (.markNoToken now) := fun _ _ => rfl
    simp only [follows_bind, follows_query, follows_pure]
    refine ⟨True.intro, fun now => ⟨⟨?_, .inr (.inr ⟨hcloses now, ?_⟩)⟩, fun _ => ?_⟩⟩
    · simp [Wrote]
    · simp [canListVenues, htoken]
    · exact wrote_append.mpr (.inr ⟨_, rfl, hcloses now⟩)

end Signer.Gateway
