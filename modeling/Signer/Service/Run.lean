import Mathlib.Logic.Basic

/-!
# Runs of a state machine

A machine takes an input in a state, answers, and goes on in the next state.
-/

namespace Signer.Run

variable {ι σ ο : Type}

/-- An input with the states around it, and the answer. -/
structure Step (ι σ ο : Type) where
  input : ι
  before : σ
  output : ο
  after : σ

/-- What the machine does on a list of inputs. -/
def steps (machine : ι → σ → ο × σ) : σ → List ι → List (Step ι σ ο)
  | _, [] => []
  | s, i :: inputs =>
    ⟨i, s, (machine i s).1, (machine i s).2⟩ :: steps machine (machine i s).2 inputs

variable {machine : ι → σ → ο × σ} {s : σ} {inputs : List ι} {step : Step ι σ ο}

theorem mem_steps (h : step ∈ steps machine s inputs) :
    step.input ∈ inputs ∧ machine step.input step.before = (step.output, step.after) := by
  induction inputs generalizing s with
  | nil => simp [steps] at h
  | cons i inputs ih =>
    rcases List.mem_cons.mp h with rfl | hrest
    · exact ⟨List.mem_cons_self, rfl⟩
    · exact ⟨List.mem_cons_of_mem _ (ih hrest).1, (ih hrest).2⟩

theorem after_eq (h : step ∈ steps machine s inputs) :
    step.after = (machine step.input step.before).2 := by
  rw [(mem_steps h).2]

theorem output_eq (h : step ∈ steps machine s inputs) :
    step.output = (machine step.input step.before).1 := by
  rw [(mem_steps h).2]

theorem map_input : (steps machine s inputs).map Step.input = inputs := by
  induction inputs generalizing s with
  | nil => rfl
  | cons i inputs ih => rw [steps, List.map_cons, ih]

theorem before_mem (h : step ∈ steps machine s inputs) :
    step.before = s ∨ ∃ earlier ∈ steps machine s inputs, step.before = earlier.after := by
  induction inputs generalizing s with
  | nil => simp [steps] at h
  | cons i inputs ih =>
    rcases List.mem_cons.mp h with rfl | hrest
    · exact .inl rfl
    · rcases ih hrest with hfirst | ⟨earlier, hearlier, hbefore⟩
      · exact .inr ⟨_, List.mem_cons_self, hfirst⟩
      · exact .inr ⟨earlier, List.mem_cons_of_mem _ hearlier, hbefore⟩

variable {before after : List (Step ι σ ο)}

theorem exists_steps_after
    (h : steps machine s inputs = before ++ step :: after) :
    ∃ rest, after = steps machine step.after rest := by
  induction inputs generalizing s before with
  | nil => simp [steps] at h
  | cons i inputs ih =>
    cases before with
    | nil =>
      obtain ⟨rfl, rfl⟩ := List.cons.inj h
      exact ⟨inputs, rfl⟩
    | cons first before => exact ih (List.cons.inj h).2

theorem exists_steps_of_prefix {stretch after : List (Step ι σ ο)}
    (h : steps machine s inputs = stretch ++ after) :
    ∃ first, stretch = steps machine s first := by
  induction inputs generalizing s stretch with
  | nil =>
    obtain ⟨rfl, -⟩ := List.append_eq_nil_iff.mp h.symm
    exact ⟨[], rfl⟩
  | cons i inputs ih =>
    cases stretch with
    | nil => exact ⟨[], rfl⟩
    | cons first stretch =>
      obtain ⟨hfirst, hrest⟩ := List.cons.inj h
      obtain ⟨more, hmore⟩ := ih hrest
      exact ⟨i :: more, by rw [steps, hfirst, hmore]⟩

theorem exists_steps_of_infix {rest : List (Step ι σ ο)}
    (h : step :: rest <:+: steps machine s inputs) :
    ∃ stretch, step :: rest = steps machine step.before stretch := by
  obtain ⟨before, after, hsplit⟩ := h
  induction inputs generalizing s before with
  | nil => simp [steps] at hsplit
  | cons i inputs ih =>
    cases before with
    | nil =>
      obtain ⟨first, hfirst⟩ := exists_steps_of_prefix hsplit.symm
      cases first with
      | nil => cases hfirst
      | cons j first =>
        obtain rfl : step.before = s := by rw [(List.cons.inj hfirst).1]
        exact ⟨j :: first, hfirst⟩
    | cons earlier before => exact ih before (List.cons.inj hsplit).2

variable {I : σ → Prop}

/-- An invariant that the steps of a run keep holds along the run. -/
theorem invariant (hs : I s)
    (hstep : ∀ step ∈ steps machine s inputs, I step.before → I step.after) :
    ∀ step ∈ steps machine s inputs, I step.before ∧ I step.after := by
  induction inputs generalizing s with
  | nil => simp [steps]
  | cons i inputs ih =>
    have hnext : I (machine i s).2 := hstep _ List.mem_cons_self hs
    intro step h
    rcases List.mem_cons.mp h with rfl | hrest
    · exact ⟨hs, hnext⟩
    · exact ih hnext (fun later hlater => hstep later (List.mem_cons_of_mem _ hlater)) step hrest

/-- An invariant from a point of a run on. -/
theorem invariant_after
    (h : steps machine s inputs = before ++ step :: after) (hI : I step.after)
    (hstep : ∀ later ∈ after, I later.before → I later.after) :
    ∀ later ∈ after, I later.before ∧ I later.after := by
  obtain ⟨rest, rfl⟩ := exists_steps_after h
  exact invariant hI hstep

theorem invariant_until {mid after : List (Step ι σ ο)} (hs : I s)
    (h : steps machine s inputs = mid ++ step :: after)
    (hstep : ∀ earlier ∈ mid, I earlier.before → I earlier.after) : I step.before := by
  induction inputs generalizing s mid with
  | nil => simp [steps] at h
  | cons i inputs ih =>
    cases mid with
    | nil =>
      obtain ⟨rfl, -⟩ := List.cons.inj h
      exact hs
    | cons first mid =>
      obtain ⟨rfl, hrest⟩ := List.cons.inj h
      exact ih (hstep _ List.mem_cons_self hs) hrest
        fun earlier hearlier => hstep earlier (List.mem_cons_of_mem _ hearlier)

variable {H : List (Step ι σ ο) → σ → Prop}

/-- A relation between what was done so far and the state. -/
theorem invariant_history (hs : H [] s)
    (hstep : ∀ before, ∀ step ∈ steps machine s inputs, H before step.before →
      H (before ++ [step]) step.after)
    (h : steps machine s inputs = before ++ step :: after) :
    H before step.before ∧ H (before ++ [step]) step.after := by
  induction inputs generalizing s before H with
  | nil => simp [steps] at h
  | cons i inputs ih =>
    have hfirst := hstep [] _ List.mem_cons_self hs
    cases before with
    | nil =>
      obtain ⟨rfl, -⟩ := List.cons.inj h
      exact ⟨hs, hfirst⟩
    | cons first before =>
      obtain ⟨rfl, hrest⟩ := List.cons.inj h
      exact ih (H := fun before => H (_ :: before)) hfirst
        (fun before step hmem => hstep (_ :: before) step (List.mem_cons_of_mem _ hmem)) hrest

theorem exists_history (hs : H [] s)
    (hstep : ∀ before, ∀ step ∈ steps machine s inputs, H before step.before →
      H (before ++ [step]) step.after) : ∃ last, H (steps machine s inputs) last := by
  rcases List.eq_nil_or_concat (steps machine s inputs) with hnil | ⟨before, step, hlast⟩
  · exact ⟨s, hnil ▸ hs⟩
  · rw [List.concat_eq_append] at hlast
    exact ⟨step.after, hlast ▸ (invariant_history hs hstep hlast).2⟩

/-- Machines in a simulation answer alike. -/
theorem map_output_eq {τ : Type} {other : ι → τ → ο × τ} {R : σ → τ → Prop}
    (hstep : ∀ i s t, R s t → (machine i s).1 = (other i t).1 ∧ R (machine i s).2 (other i t).2)
    {t : τ} (h : R s t) :
    (steps machine s inputs).map Step.output = (steps other t inputs).map Step.output := by
  induction inputs generalizing s t with
  | nil => rfl
  | cons i inputs ih =>
    obtain ⟨houtput, hnext⟩ := hstep i s t h
    rw [steps, steps, List.map_cons, List.map_cons, ih hnext, houtput]

/-- The second list is the first one with inputs inserted that satisfy `P`. -/
inductive Inserted (P : ι → Prop) : List ι → List ι → Prop where
  | nil : Inserted P [] []
  | keep (i : ι) {inputs more : List ι} :
      Inserted P inputs more → Inserted P (i :: inputs) (i :: more)
  | insert (i : ι) {inputs more : List ι} :
      P i → Inserted P inputs more → Inserted P inputs (i :: more)

theorem filterMap_steps_of_inserted {β : Type} {P : ι → Prop} {R : σ → σ → Prop}
    {observe : Step ι σ ο → Option β}
    (hkeep : ∀ i s t, I s → I t → R s t → R (machine i s).2 (machine i t).2 ∧
      observe ⟨i, s, (machine i s).1, (machine i s).2⟩ =
        observe ⟨i, t, (machine i t).1, (machine i t).2⟩)
    (hinsert : ∀ i s t, P i → I t → R s t → R s (machine i t).2 ∧
      observe ⟨i, t, (machine i t).1, (machine i t).2⟩ = none)
    {more : List ι} {t : σ} (h : Inserted P inputs more) (hR : R s t) (hs : I s) (ht : I t)
    (hsteps : ∀ step ∈ steps machine s inputs, I step.after)
    (hmore : ∀ step ∈ steps machine t more, I step.after) :
    (steps machine s inputs).filterMap observe = (steps machine t more).filterMap observe := by
  induction h generalizing s t with
  | nil => rfl
  | keep i h ih =>
    obtain ⟨hnext, hobserve⟩ := hkeep i s t hs ht hR
    have hrest := ih hnext (hsteps _ List.mem_cons_self) (hmore _ List.mem_cons_self)
      (fun step hstep => hsteps step (List.mem_cons_of_mem _ hstep))
      (fun step hstep => hmore step (List.mem_cons_of_mem _ hstep))
    rw [steps, steps, List.filterMap_cons, List.filterMap_cons, hobserve, hrest]
  | insert i hi h ih =>
    obtain ⟨hnext, hobserve⟩ := hinsert i s t hi ht hR
    have hrest := ih hnext hs (hmore _ List.mem_cons_self) hsteps
      (fun step hstep => hmore step (List.mem_cons_of_mem _ hstep))
    rw [hrest, steps, List.filterMap_cons, hobserve]

theorem length_filter_le_one {p : Step ι σ ο → Bool} {l : List (Step ι σ ο)}
    (h : ∀ before step after, l = before ++ step :: after → p step = true →
      ∀ later ∈ after, p later = false) : (l.filter p).length ≤ 1 := by
  induction l with
  | nil => simp
  | cons first rest ih =>
    have hrest := ih fun before step after hsplit => h
        (first :: before) step after (by rw [hsplit]; rfl)
    cases hfirst : p first with
    | false => rwa [List.filter_cons_of_neg (by rw [hfirst]; simp)]
    | true =>
      have hnone : rest.filter p = [] :=
        List.filter_eq_nil_iff.mpr fun later hlater => by simp [h
          [] first rest rfl hfirst later hlater]
      rw [List.filter_cons_of_pos hfirst, hnone]
      simp

end Signer.Run
