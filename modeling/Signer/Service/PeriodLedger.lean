import Mathlib.Algebra.BigOperators.Group.List.Basic
import Mathlib.Algebra.Ring.Nat

/-!
# Amounts granted in a period

Something is granted to keys, at most so much of it to each key in each period. The one who
grants keeps the period it is in, which never goes back, and a total for each key.
-/

namespace Signer.PeriodLedger

variable {κ : Type}

theorem filterMap_concat {β γ : Type} (f : β → Option γ) (l : List β) (b : β) :
    (l ++ [b]).filterMap f = l.filterMap f ++ (f b).toList := by
  rw [List.filterMap_append]
  cases hb : f b <;> simp [hb]

structure Grant (κ : Type) where
  key : κ
  period : ℕ
  amount : ℕ

variable [DecidableEq κ]

/-- What the key was granted in the period. -/
def granted (grants : List (Grant κ)) (key : κ) (period : ℕ) : ℕ :=
  (grants.map fun grant =>
    if grant.key = key ∧ grant.period = period then grant.amount else 0).sum

/-- A total that covers what the key was granted in the period, with nothing granted later. -/
def Covers (grants : List (Grant κ)) (key : κ) (period total : ℕ) : Prop :=
  granted grants key period ≤ total ∧ ∀ later, period < later → granted grants key later = 0

variable {grants : List (Grant κ)} {grant : Grant κ} {key : κ} {period later total more : ℕ}

@[simp]
theorem granted_append_singleton : granted (grants ++ [grant]) key period =
    granted grants key period +
      if grant.key = key ∧ grant.period = period then grant.amount else 0 := by
  simp [granted]

theorem Covers.nil : Covers ([] : List (Grant κ)) key period total :=
  ⟨Nat.zero_le _, fun _ _ => rfl⟩

theorem Covers.of_granted_eq_zero (h : ∀ period, granted grants key period = 0) :
    Covers grants key period total :=
  ⟨(h period).trans_le (Nat.zero_le _), fun later _ => h later⟩

theorem Covers.mono (h : Covers grants key period total) (hle : total ≤ more) :
    Covers grants key period more :=
  ⟨Nat.le_trans h.1 hle, h.2⟩

/-- In a later period any total covers, so forgetting the totals then forgets nothing. -/
theorem Covers.advance (h : Covers grants key period total) (hlt : period < later) :
    Covers grants key later more :=
  ⟨(h.2 later hlt).trans_le (Nat.zero_le _), fun next hnext => h.2 next (Nat.lt_trans hlt hnext)⟩

/-- A grant in the period is covered by a total that is larger by as much. -/
theorem Covers.append (h : Covers grants key period total) (hperiod : grant.period = period)
    (hle : total ≤ more) (hself : grant.key = key → total + grant.amount ≤ more) :
    Covers (grants ++ [grant]) key period more := by
  constructor
  · have hbefore : granted grants key period ≤ total := h.1
    by_cases hkey : grant.key = key
    · have hmore := hself hkey
      simp only [granted_append_singleton, hkey, hperiod, and_self, if_true]
      omega
    · simp only [granted_append_singleton, hkey, false_and, if_false]
      omega
  · intro next hnext
    have hne : grant.period ≠ next := by omega
    simp only [granted_append_singleton, hne, and_false, if_false, h.2 next hnext]

theorem granted_append_of_ne (h : grant.key ≠ key) :
    granted (grants ++ [grant]) key period = granted grants key period := by
  simp [h]

theorem Covers.append_of_ne (h : Covers grants key period total) (hne : grant.key ≠ key) :
    Covers (grants ++ [grant]) key period total :=
  ⟨(granted_append_of_ne hne).trans_le h.1,
    fun later hlater => (granted_append_of_ne hne).trans (h.2 later hlater)⟩

theorem granted_append_le {cap : ℕ} (h : ∀ key period, granted grants key period ≤ cap)
    (hcovers : Covers grants grant.key grant.period total) (hcap : total + grant.amount ≤ cap)
    (key : κ) (period : ℕ) : granted (grants ++ [grant]) key period ≤ cap := by
  rw [granted_append_singleton]
  split
  · rename_i hself
    obtain ⟨rfl, rfl⟩ := hself
    have hbefore : granted grants grant.key grant.period ≤ total := hcovers.1
    omega
  · exact h key period

theorem granted_filterMap_eq_length {β : Type} {grantOf : β → Option (Grant κ)} {p : β → Bool}
    (hgrant : ∀ b grant, grantOf b = some grant → grant.amount = 1 ∧
      (p b = true ↔ grant.key = key ∧ grant.period = period))
    (hnone : ∀ b, grantOf b = none → p b = false) (l : List β) :
    granted (l.filterMap grantOf) key period = (l.filter p).length := by
  induction l with
  | nil => rfl
  | cons b l ih =>
    cases hb : grantOf b with
    | none => rw [List.filterMap_cons_none hb, List.filter_cons_of_neg (by simp [hnone b hb]), ih]
    | some grant =>
      obtain ⟨hamount, hp⟩ := hgrant b grant hb
      have hcons : granted (grant :: l.filterMap grantOf) key period =
          (if grant.key = key ∧ grant.period = period then grant.amount else 0) +
            granted (l.filterMap grantOf) key period := by simp [granted]
      rw [List.filterMap_cons_some hb, hcons, ih, hamount, List.filter_cons]
      by_cases hpb : p b = true
      · rw [if_pos (hp.mp hpb), if_pos hpb, List.length_cons, Nat.add_comm]
      · rw [if_neg fun hself => hpb (hp.mpr hself), if_neg hpb, Nat.zero_add]

end Signer.PeriodLedger
