import Mathlib.Data.Nat.Digits.Lemmas

/-!
# Digit strings

Numbers written most significant digit first, in any base.
-/

namespace Signer.Digits

variable {ds xs ys : List ℕ}

variable {b : ℕ}

/-- The value of a digit string: Mathlib's `Nat.ofDigits` of its reversal. -/
def value (b : ℕ) (ds : List ℕ) : ℕ := Nat.ofDigits b ds.reverse

@[simp]
theorem value_nil : value b [] = 0 := rfl

theorem value_append (xs ys : List ℕ) :
    value b (xs ++ ys) = value b xs * b ^ ys.length + value b ys := by
  simp only [value, List.reverse_append, Nat.ofDigits_append, List.length_reverse]
  ring

theorem value_cons (d : ℕ) (ds : List ℕ) :
    value b (d :: ds) = d * b ^ ds.length + value b ds := by
  have h := value_append (b := b) [d] ds
  simpa [value] using h

@[simp]
theorem value_replicate_zero (n : ℕ) : value b (List.replicate n 0) = 0 := by
  induction n with
  | zero => rfl
  | succ n ih => rw [List.replicate_succ, value_cons, ih, Nat.zero_mul]

theorem value_append_zeros (ds : List ℕ) (n : ℕ) :
    value b (ds ++ List.replicate n 0) = value b ds * b ^ n := by
  rw [value_append, value_replicate_zero, List.length_replicate, Nat.add_zero]

theorem value_dropWhile_zero (ds : List ℕ) : value b (ds.dropWhile (· = 0)) = value b ds := by
  induction ds with
  | nil => rfl
  | cons d ds ih =>
    by_cases hd : d = 0
    · rw [List.dropWhile_cons_of_pos (by simpa using hd), ih, value_cons, hd, Nat.zero_mul,
        Nat.zero_add]
    · rw [List.dropWhile_cons_of_neg (by simpa using hd)]

theorem value_lt_pow (hb : 1 < b) (hds : ∀ d ∈ ds, d < b) :
    value b ds < b ^ ds.length := by
  have h := Nat.ofDigits_lt_base_pow_length hb (l := ds.reverse) (by simpa using hds)
  simpa [value] using h

/-- Digits of the base, without leading zeros. -/
structure Normal (b : ℕ) (ds : List ℕ) : Prop where
  digits_lt : ∀ d ∈ ds, d < b
  head_ne_zero : ds.head? ≠ some 0

theorem normal_dropWhile_zero (hds : ∀ d ∈ ds, d < b) :
    Normal b (ds.dropWhile (· = 0)) := by
  refine ⟨fun d hd => hds d ((List.dropWhile_sublist _).subset hd), ?_⟩
  intro hzero
  obtain ⟨tail, htail⟩ := List.head?_eq_some_iff.mp hzero
  have hhead := List.head_dropWhile_not (fun d => decide (d = 0)) (l := ds) (by simp [htail])
  simp [htail] at hhead

theorem pow_le_value {d : ℕ} (hd : d ≠ 0) : b ^ ds.length ≤ value b (d :: ds) := by
  have hpos : 1 ≤ d := Nat.one_le_iff_ne_zero.mpr hd
  rw [value_cons]
  calc b ^ ds.length = 1 * b ^ ds.length := (Nat.one_mul _).symm
    _ ≤ d * b ^ ds.length := Nat.mul_le_mul_right _ hpos
    _ ≤ d * b ^ ds.length + value b ds := Nat.le_add_right _ _

theorem value_lt_of_length_lt (hb : 1 < b) (hxs : Normal b xs) (hys : Normal b ys)
    (hlength : xs.length < ys.length) : value b xs < value b ys := by
  cases ys with
  | nil => simp at hlength
  | cons y ys =>
    have hy : y ≠ 0 := fun h => hys.head_ne_zero (by simp [h])
    have hbound : b ^ xs.length ≤ b ^ ys.length :=
      Nat.pow_le_pow_right (by omega) (by simpa [Nat.lt_succ_iff] using hlength)
    exact lt_of_lt_of_le (value_lt_pow hb hxs.digits_lt) (hbound.trans (pow_le_value hy))

private theorem compare_add_left (a m n : ℕ) : compare (a + m) (a + n) = compare m n := by
  rcases lt_trichotomy m n with h | rfl | h
  · rw [Nat.compare_eq_lt.mpr h, Nat.compare_eq_lt.mpr (Nat.add_lt_add_left h a)]
  · rw [Nat.compare_eq_eq.mpr rfl, Nat.compare_eq_eq.mpr rfl]
  · rw [Nat.compare_eq_gt.mpr h, Nat.compare_eq_gt.mpr (Nat.add_lt_add_left h a)]

theorem compare_of_length_eq (hb : 1 < b) (hxs : ∀ d ∈ xs, d < b) (hys : ∀ d ∈ ys, d < b)
    (hlength : xs.length = ys.length) :
    compare xs ys = compare (value b xs) (value b ys) := by
  induction xs generalizing ys with
  | nil =>
    cases ys with
    | nil => simp
    | cons y ys => simp at hlength
  | cons x xs ih =>
    cases ys with
    | nil => simp at hlength
    | cons y ys =>
      have hlen : xs.length = ys.length := by simpa using hlength
      have htail := ih (fun d hd => hxs d (by simp [hd])) (fun d hd => hys d (by simp [hd])) hlen
      have hx : value b xs < b ^ xs.length := value_lt_pow hb fun d hd => hxs d (by simp [hd])
      have hy : value b ys < b ^ ys.length := value_lt_pow hb fun d hd => hys d (by simp [hd])
      have hstep : compare (x :: xs) (y :: ys) = (compare x y).then (compare xs ys) :=
        List.compareLex_cons_cons
      rw [hstep, htail, value_cons, value_cons, hlen]
      rw [hlen] at hx
      -- the leading digit decides unless the two agree there
      rcases lt_trichotomy x y with hxy | rfl | hxy
      · have hmul : (x + 1) * b ^ ys.length ≤ y * b ^ ys.length := Nat.mul_le_mul_right _ hxy
        have hlt : x * b ^ ys.length + value b xs < y * b ^ ys.length + value b ys := by
          rw [Nat.succ_mul] at hmul
          omega
        rw [Nat.compare_eq_lt.mpr hxy, Nat.compare_eq_lt.mpr hlt]
        rfl
      · rw [Nat.compare_eq_eq.mpr rfl, compare_add_left]
        rfl
      · have hmul : (y + 1) * b ^ ys.length ≤ x * b ^ ys.length := Nat.mul_le_mul_right _ hxy
        have hlt : y * b ^ ys.length + value b ys < x * b ^ ys.length + value b xs := by
          rw [Nat.succ_mul] at hmul
          omega
        rw [Nat.compare_eq_gt.mpr hxy, Nat.compare_eq_gt.mpr hlt]
        rfl

/-- Normal strings compare like their values by length, then digit by digit. -/
theorem compare_normal (hb : 1 < b) (hxs : Normal b xs) (hys : Normal b ys) :
    (compare xs.length ys.length).then (compare xs ys) = compare (value b xs) (value b ys) := by
  rcases lt_trichotomy xs.length ys.length with h | h | h
  · rw [Nat.compare_eq_lt.mpr h, Nat.compare_eq_lt.mpr (value_lt_of_length_lt hb hxs hys h)]
    rfl
  · rw [Nat.compare_eq_eq.mpr h, compare_of_length_eq hb hxs.digits_lt hys.digits_lt h]
    rfl
  · rw [Nat.compare_eq_gt.mpr h, Nat.compare_eq_gt.mpr (value_lt_of_length_lt hb hys hxs h)]
    rfl

end Signer.Digits
