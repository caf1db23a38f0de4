import Signer.Contract.AttestationRegistry

/-!
# The history of one owner

Only the last record of a history can be active. Retiring it and appending one keep this.
-/

namespace Signer.Contract

/-! ### One history -/

/-- Every record but the last is deprecated. -/
def OnlyLastActive (rs : List PCR0Record) : Prop := ∀ r ∈ rs.dropLast, r.deprecatedAt ≠ 0

/-- What the owner holds: the measurement of the last record, if it is active. -/
def heldBy (rs : List PCR0Record) : Option Measurement :=
  rs.getLast?.bind fun r => if r.deprecatedAt = 0 then some r.pcr0 else none

/-- Deprecates the last record, if it is active. -/
def retire (now : UInt64) (rs : List PCR0Record) : List PCR0Record :=
  match rs.getLast? with
  | none => rs
  | some last =>
    if last.deprecatedAt = 0 then rs.set (rs.length - 1) { last with deprecatedAt := now } else rs

section

variable {rs front : List PCR0Record} {r last : PCR0Record} {m : Measurement} {now : UInt64}

@[simp]
theorem heldBy_nil : heldBy [] = none := rfl

@[simp]
theorem heldBy_concat : heldBy (front ++ [last]) =
    if last.deprecatedAt = 0 then some last.pcr0 else none := by
  simp [heldBy]

@[simp]
theorem onlyLastActive_nil : OnlyLastActive [] := by simp [OnlyLastActive]

@[simp]
theorem onlyLastActive_concat :
    OnlyLastActive (front ++ [last]) ↔ ∀ r ∈ front, r.deprecatedAt ≠ 0 := by
  simp [OnlyLastActive]

theorem exists_of_heldBy (h : heldBy rs = some m) :
    ∃ front last, rs = front ++ [last] ∧ last.pcr0 = m ∧ last.deprecatedAt = 0 := by
  rcases List.eq_nil_or_concat' rs with rfl | ⟨front, last, rfl⟩
  · cases h
  · rw [heldBy_concat] at h
    split at h
    · rename_i hactive
      exact ⟨front, last, rfl, Option.some.inj h, hactive⟩
    · cases h

theorem retire_of_held (hactive : last.deprecatedAt = 0) :
    retire now (front ++ [last]) = front ++ [{ last with deprecatedAt := now }] := by
  simp [retire, hactive]

theorem retire_of_not_held (h : heldBy rs = none) : retire now rs = rs := by
  rcases List.eq_nil_or_concat' rs with rfl | ⟨front, last, rfl⟩
  · rfl
  · rw [heldBy_concat] at h
    split at h
    · cases h
    rename_i hactive
    simp [retire, hactive]

theorem deprecated_of_not_held (h : OnlyLastActive rs) (hnone : heldBy rs = none) :
    ∀ r ∈ rs, r.deprecatedAt ≠ 0 := by
  rcases List.eq_nil_or_concat' rs with rfl | ⟨front, last, rfl⟩
  · simp
  · rw [onlyLastActive_concat] at h
    rw [heldBy_concat] at hnone
    intro r hr hactive
    rcases List.mem_append.mp hr with hfront | hlast
    · exact h r hfront hactive
    · rw [List.mem_singleton.mp hlast] at hactive
      rw [if_pos hactive] at hnone
      cases hnone

theorem deprecated_of_mem_retire (h : OnlyLastActive rs) (hnow : now ≠ 0) :
    ∀ r ∈ retire now rs, r.deprecatedAt ≠ 0 := by
  cases hheld : heldBy rs with
  | none =>
    rw [retire_of_not_held hheld]
    exact deprecated_of_not_held h hheld
  | some m =>
    obtain ⟨front, last, rfl, -, hactive⟩ := exists_of_heldBy hheld
    rw [onlyLastActive_concat] at h
    rw [retire_of_held hactive]
    intro r hr
    rcases List.mem_append.mp hr with hfront | hlast
    · exact h r hfront
    · rwa [List.mem_singleton.mp hlast]

theorem onlyLastActive_retire (h : OnlyLastActive rs) (hnow : now ≠ 0) :
    OnlyLastActive (retire now rs) := fun r hr =>
  deprecated_of_mem_retire h hnow r (List.dropLast_subset _ hr)

theorem heldBy_retire (h : OnlyLastActive rs) (hnow : now ≠ 0) : heldBy (retire now rs) = none := by
  cases hheld : heldBy (retire now rs) with
  | none => rfl
  | some m =>
    obtain ⟨front, last, hrs, -, hactive⟩ := exists_of_heldBy hheld
    exact absurd hactive (deprecated_of_mem_retire h hnow last (by simp [hrs]))

/-- The loop of the contract finds the last record at once. -/
theorem deprecateFrom_eq_retire {keccak256 : Bytes → Bytes} (h : heldBy rs = some m) :
    deprecateFrom keccak256 (keccak256 m.1) now rs rs.length = retire now rs := by
  obtain ⟨front, last, rfl, rfl, hactive⟩ := exists_of_heldBy h
  rw [retire_of_held hactive, List.length_append, List.length_singleton, deprecateFrom]
  simp [hactive]

theorem activeFrom_eq_none {n : ℕ} (h : ∀ i < n, ∀ r, rs[i]? = some r → r.deprecatedAt ≠ 0) :
    activeFrom rs n = none := by
  induction n with
  | zero => rfl
  | succ n ih =>
    have hbelow := ih fun i hi => h i (Nat.lt_succ_of_lt hi)
    rw [activeFrom]
    split
    · exact hbelow
    · rename_i r hr
      rw [if_neg (h n (Nat.lt_succ_self n) r hr), hbelow]

theorem activeFrom_isSome_iff (h : OnlyLastActive rs) :
    (activeFrom rs rs.length).isSome = true ↔ ∃ m, heldBy rs = some m := by
  rcases List.eq_nil_or_concat' rs with rfl | ⟨front, last, rfl⟩
  · simp [activeFrom]
  · rw [onlyLastActive_concat] at h
    rw [heldBy_concat]
    by_cases hactive : last.deprecatedAt = 0
    · rw [List.length_append, List.length_singleton, activeFrom]
      simp [hactive]
    · have hnone : activeFrom (front ++ [last]) (front ++ [last]).length = none := by
        refine activeFrom_eq_none fun i _ r hr => ?_
        rcases List.mem_append.mp (List.mem_of_getElem? hr) with hfront | hlast
        · exact h r hfront
        · rwa [List.mem_singleton.mp hlast]
      rw [hnone]
      simp [hactive]

theorem OnlyLastActive.last_of_active (h : OnlyLastActive rs) {i : ℕ} (hr : rs[i]? = some r)
    (hactive : r.deprecatedAt = 0) : i + 1 = rs.length := by
  rcases List.eq_nil_or_concat' rs with rfl | ⟨front, last, rfl⟩
  · cases hr
  · rw [onlyLastActive_concat] at h
    obtain ⟨hi, -⟩ := List.getElem?_eq_some_iff.mp hr
    rw [List.length_append, List.length_singleton] at hi ⊢
    by_contra hne
    have hlt : i < front.length := by omega
    rw [List.getElem?_append_left hlt] at hr
    exact h r (List.mem_of_getElem? hr) hactive

/-- How many active records name the measurement. -/
def activeCount (m : Measurement) (rs : List PCR0Record) : ℕ :=
  rs.countP fun r => r.pcr0 = m ∧ r.deprecatedAt = 0

theorem activeCount_eq_one_iff (h : OnlyLastActive rs) :
    activeCount m rs = 1 ↔ heldBy rs = some m := by
  rcases List.eq_nil_or_concat' rs with rfl | ⟨front, last, rfl⟩
  · simp [activeCount]
  · rw [onlyLastActive_concat] at h
    have hfront : activeCount m front = 0 := by
      rw [activeCount, List.countP_eq_zero]
      intro r hr
      simp [h r hr]
    rw [activeCount] at hfront ⊢
    rw [List.countP_append, hfront, heldBy_concat]
    by_cases hactive : last.deprecatedAt = 0
    · by_cases hm : last.pcr0 = m <;> simp [hactive, hm]
    · simp [hactive]

end

/-! ### How a history grows -/

/-- A record is deprecated once at most, and does not change otherwise. -/
def PCR0Record.Evolves (r r' : PCR0Record) : Prop :=
  r' = r ∨ r.deprecatedAt = 0 ∧ ∃ now ≠ 0, r' = { r with deprecatedAt := now }

/-- A record never leaves a history. -/
def HistoryGrows (rs rs' : List PCR0Record) : Prop :=
  ∀ (i : ℕ) r, rs[i]? = some r → ∃ r', rs'[i]? = some r' ∧ r.Evolves r'

section

variable {rs rs' rs'' : List PCR0Record}

theorem PCR0Record.Evolves.trans {r r' r'' : PCR0Record} (h : r.Evolves r') (h' : r'.Evolves r'') :
    r.Evolves r'' := by
  rcases h with rfl | ⟨hactive, now, hnow, rfl⟩
  · exact h'
  · rcases h' with rfl | ⟨hagain, -⟩
    · exact .inr ⟨hactive, now, hnow, rfl⟩
    · exact absurd hagain hnow

theorem HistoryGrows.refl (rs : List PCR0Record) : HistoryGrows rs rs := fun _ r hr =>
  ⟨r, hr, .inl rfl⟩

theorem HistoryGrows.trans (h : HistoryGrows rs rs') (h' : HistoryGrows rs' rs'') :
    HistoryGrows rs rs'' := by
  intro i r hr
  obtain ⟨r', hr', hevolves⟩ := h i r hr
  obtain ⟨r'', hr'', hevolves'⟩ := h' i r' hr'
  exact ⟨r'', hr'', hevolves.trans hevolves'⟩

theorem historyGrows_append (rs added : List PCR0Record) : HistoryGrows rs (rs ++ added) := by
  intro i r hr
  obtain ⟨hi, -⟩ := List.getElem?_eq_some_iff.mp hr
  exact ⟨r, by rw [List.getElem?_append_left hi, hr], .inl rfl⟩

theorem historyGrows_retire {now : UInt64} (hnow : now ≠ 0) (rs : List PCR0Record) :
    HistoryGrows rs (retire now rs) := by
  cases hheld : heldBy rs with
  | none =>
    rw [retire_of_not_held hheld]
    exact .refl rs
  | some m =>
    obtain ⟨front, last, rfl, -, hactive⟩ := exists_of_heldBy hheld
    rw [retire_of_held hactive]
    intro i r hr
    rcases lt_trichotomy i front.length with hlt | rfl | hgt
    · rw [List.getElem?_append_left hlt] at hr ⊢
      exact ⟨r, hr, .inl rfl⟩
    · rw [List.getElem?_concat_length, Option.some.injEq] at hr
      subst hr
      exact ⟨_, List.getElem?_concat_length .., .inr ⟨hactive, now, hnow, rfl⟩⟩
    · rw [List.getElem?_eq_none (by rw [List.length_append]; exact hgt)] at hr
      cases hr

end

end Signer.Contract
