import Signer.Decimal

/-!
# Comparing decimals with caps

`cmp_positive_decimals` and the cap tests built on it. Each is the comparison of the
rational numbers its operands denote, and fails only if an operand is no decimal.
-/

namespace Signer

open Digits

/-- `cmp_scaled`: align the scales, then compare by length and digits. -/
def cmpScaled (x y : Decimal) : Ordering :=
  let left := if x.scale < y.scale then shiftDigits x.digits (y.scale - x.scale) else x.digits
  let right := if y.scale < x.scale then shiftDigits y.digits (x.scale - y.scale) else y.digits
  (compare left.length right.length).then (compare left right)

def cmpPositiveDecimals (a b : String) : Option Ordering := do
  let x ← decimalDigits a
  let y ← decimalDigits b
  pure (cmpScaled x y)

def notionalExceeds (qty price maxNotional : String) : Option Bool := do
  let q ← decimalDigits qty
  let p ← decimalDigits price
  let c ← decimalDigits maxNotional
  pure (cmpScaled (q.mul p) c = .gt)

def sumExceeds (values : List String) (cap : String) : Option Bool := do
  let c ← decimalDigits cap
  let total ← values.foldlM (fun acc v => (decimalDigits v).map acc.add) Decimal.zero
  pure (cmpScaled total c = .gt)

def notionalSumExceeds (pairs : List (String × String)) (maxNotional : String) : Option Bool := do
  let c ← decimalDigits maxNotional
  let total ← pairs.foldlM (fun acc (qty, price) => do
    let q ← decimalDigits qty
    let p ← decimalDigits price
    pure (acc.add (q.mul p))) Decimal.zero
  pure (cmpScaled total c = .gt)

private theorem compare_div_pow (m n k : ℕ) :
    compare ((m : ℚ) / 10 ^ k) ((n : ℚ) / 10 ^ k) = compare m n := by
  have hpos : (0 : ℚ) < 10 ^ k := by positivity
  rcases lt_trichotomy m n with h | rfl | h
  · rw [compare_lt_iff_lt.mpr h, compare_lt_iff_lt, div_lt_div_iff_of_pos_right hpos]
    exact_mod_cast h
  · rw [compare_eq_iff_eq.mpr rfl, compare_eq_iff_eq.mpr rfl]
  · rw [compare_gt_iff_gt.mpr h, compare_gt_iff_gt, div_lt_div_iff_of_pos_right hpos]
    exact_mod_cast h

theorem cmpScaled_eq_compare (x y : Decimal) : cmpScaled x y = compare x.toRat y.toRat := by
  unfold cmpScaled Decimal.toRat
  rcases lt_trichotomy x.scale y.scale with h | h | h
  · rw [if_pos h, if_neg (by omega)]
    rw [compare_normal (by norm_num) (normal_shiftDigits x.normal _) y.normal,
      ← shiftDigits_div x.digits h.le, compare_div_pow]
  · rw [if_neg (by omega), if_neg (by omega)]
    rw [compare_normal (by norm_num) x.normal y.normal, h, compare_div_pow]
  · rw [if_neg (by omega), if_pos h]
    rw [compare_normal (by norm_num) x.normal (normal_shiftDigits y.normal _),
      ← shiftDigits_div y.digits h.le, compare_div_pow]

theorem cmpPositiveDecimals_eq {a b : String} {o : Ordering}
    (h : cmpPositiveDecimals a b = some o) :
    isDecimal a = true ∧ isDecimal b = true ∧ o = compare (decimalValue a) (decimalValue b) := by
  simp only [cmpPositiveDecimals, do_eq_some, pure_eq_some] at h
  obtain ⟨x, hx, y, hy, rfl⟩ := h
  refine ⟨isDecimal_of_decimalDigits hx, isDecimal_of_decimalDigits hy, ?_⟩
  rw [cmpScaled_eq_compare, decimalDigits_toRat hx, decimalDigits_toRat hy]

theorem notionalExceeds_eq {qty price cap : String} {b : Bool}
    (h : notionalExceeds qty price cap = some b) :
    isDecimal price = true ∧ isDecimal cap = true ∧
      (b = true ↔ decimalValue cap < decimalValue qty * decimalValue price) := by
  simp only [notionalExceeds, do_eq_some, pure_eq_some] at h
  obtain ⟨q, hq, p, hp, c, hc, rfl⟩ := h
  refine ⟨isDecimal_of_decimalDigits hp, isDecimal_of_decimalDigits hc, ?_⟩
  rw [cmpScaled_eq_compare, Decimal.toRat_mul, decimalDigits_toRat hq, decimalDigits_toRat hp,
    decimalDigits_toRat hc, decide_eq_true_iff, compare_gt_iff_gt]

/-! ### Sums -/

theorem exists_decimalDigits {s : String} (h : isDecimal s = true) :
    ∃ d, decimalDigits s = some d ∧ d.toRat = decimalValue s := by
  have hsome : decimalDigits s = some _ := dif_pos h
  exact ⟨_, hsome, decimalDigits_toRat hsome⟩

theorem decimalValue_nonneg (s : String) : 0 ≤ decimalValue s := by
  unfold decimalValue
  positivity

theorem foldlM_add {α : Type} {step : Decimal → α → Option Decimal} {value : α → ℚ} {items : List α}
    (hstep : ∀ item ∈ items, ∀ acc, ∃ next, step acc item = some next ∧
      next.toRat = acc.toRat + value item) (acc : Decimal) :
    ∃ total, items.foldlM step acc = some total ∧
      total.toRat = acc.toRat + (items.map value).sum := by
  induction items generalizing acc with
  | nil => exact ⟨acc, rfl, by simp⟩
  | cons item items ih =>
    obtain ⟨next, hnext, hvalue⟩ := hstep item List.mem_cons_self acc
    obtain ⟨total, htotal, hsum⟩ :=
      ih (fun other hother => hstep other (List.mem_cons_of_mem _ hother)) next
    refine ⟨total, by simp [hnext, htotal], ?_⟩
    rw [hsum, hvalue, List.map_cons, List.sum_cons, add_assoc]

theorem sumExceeds_eq {values : List String} {cap : String}
    (hvalues : ∀ v ∈ values, isDecimal v = true) (hcap : isDecimal cap = true) :
    sumExceeds values cap = some (decide (decimalValue cap < (values.map decimalValue).sum)) := by
  obtain ⟨c, hc, hcvalue⟩ := exists_decimalDigits hcap
  have hstep : ∀ v ∈ values, ∀ acc : Decimal, ∃ next, (decimalDigits v).map acc.add = some next ∧
      next.toRat = acc.toRat + decimalValue v := by
    intro v hv acc
    obtain ⟨d, hd, hdvalue⟩ := exists_decimalDigits (hvalues v hv)
    exact ⟨acc.add d, by rw [hd, Option.map_some], by rw [Decimal.toRat_add, hdvalue]⟩
  obtain ⟨total, htotal, hsum⟩ := foldlM_add hstep Decimal.zero
  rw [Decimal.toRat_zero, zero_add] at hsum
  simp [sumExceeds, hc, htotal, cmpScaled_eq_compare, hcvalue, hsum, compare_gt_iff_gt]

theorem notionalSumExceeds_eq {pairs : List (String × String)} {cap : String}
    (hpairs : ∀ pair ∈ pairs, isDecimal pair.1 = true ∧ isDecimal pair.2 = true)
    (hcap : isDecimal cap = true) :
    notionalSumExceeds pairs cap = some (decide (decimalValue cap <
      (pairs.map fun pair => decimalValue pair.1 * decimalValue pair.2).sum)) := by
  obtain ⟨c, hc, hcvalue⟩ := exists_decimalDigits hcap
  have hstep : ∀ pair ∈ pairs, ∀ acc : Decimal, ∃ next,
      ((decimalDigits pair.1).bind fun q => (decimalDigits pair.2).bind fun p =>
        some (acc.add (q.mul p))) = some next ∧
      next.toRat = acc.toRat + decimalValue pair.1 * decimalValue pair.2 := by
    intro pair hpair acc
    obtain ⟨q, hq, hqvalue⟩ := exists_decimalDigits (hpairs pair hpair).1
    obtain ⟨p, hp, hpvalue⟩ := exists_decimalDigits (hpairs pair hpair).2
    exact ⟨acc.add (q.mul p), by rw [hq, hp, Option.bind_some, Option.bind_some],
      by rw [Decimal.toRat_add, Decimal.toRat_mul, hqvalue, hpvalue]⟩
  obtain ⟨total, htotal, hsum⟩ := foldlM_add hstep Decimal.zero
  rw [Decimal.toRat_zero, zero_add] at hsum
  simp [notionalSumExceeds, hc, htotal, cmpScaled_eq_compare, hcvalue, hsum, compare_gt_iff_gt]

end Signer
