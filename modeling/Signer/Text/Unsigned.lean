import Signer.Text.Basic
import Signer.Text.Digits

/-!
# Decimal parsers

Parsers of unsigned integers that multiply by ten and add a digit, and stop when the number leaves
its type. Two of them agree on every text that both accept, whatever their types are.
-/

namespace Signer.Text

def digitValue (digit : Char) : Nat := digit.toNat - '0'.toNat

def accumulate (bound acc : Nat) (digit : Char) : Option Nat :=
  let next := acc * 10 + digitValue digit
  if next < bound then some next else none

def parseDigits (bound : Nat) (digits : List Char) : Option Nat :=
  if digits = [] ∨ !digits.all isAsciiDigit then none else digits.foldlM (accumulate bound) 0

/-- `str::parse` for an unsigned integer type: one plus sign may stand before the digits. -/
def parseUnsigned (bound : Nat) (s : String) : Option Nat :=
  match s.toList with
  | '+' :: digit :: digits => parseDigits bound (digit :: digits)
  | digits => parseDigits bound digits

variable {bound bound' acc n n' : Nat} {digits : List Char} {s : String}

theorem foldl_of_accumulate (h : digits.foldlM (accumulate bound) acc = some n) :
    n = digits.foldl (fun value digit => value * 10 + digitValue digit) acc := by
  induction digits generalizing acc with
  | nil => exact (Option.some.inj h).symm
  | cons digit digits ih =>
    rw [List.foldlM_cons, do_eq_some] at h
    obtain ⟨next, hnext, hrest⟩ := h
    simp only [accumulate, Option.ite_none_right_eq_some, Option.some.injEq] at hnext
    obtain ⟨-, rfl⟩ := hnext
    exact ih hrest

theorem lt_of_accumulate (hacc : acc < bound)
    (h : digits.foldlM (accumulate bound) acc = some n) : n < bound := by
  induction digits generalizing acc with
  | nil =>
    cases h
    exact hacc
  | cons digit digits ih =>
    rw [List.foldlM_cons, do_eq_some] at h
    obtain ⟨next, hnext, hrest⟩ := h
    simp only [accumulate, Option.ite_none_right_eq_some, Option.some.injEq] at hnext
    obtain ⟨hlt, rfl⟩ := hnext
    exact ih hlt hrest

theorem parseDigits_eq_some (h : parseDigits bound digits = some n) :
    digits ≠ [] ∧ (∀ digit ∈ digits, isAsciiDigit digit = true) ∧
      digits.foldlM (accumulate bound) 0 = some n := by
  simp only [parseDigits, Option.ite_none_left_eq_some, not_or, Bool.not_eq_true',
    Bool.not_eq_false, List.all_eq_true] at h
  exact ⟨h.1.1, h.1.2, h.2⟩

theorem parseDigits_lt (hbound : 0 < bound) (h : parseDigits bound digits = some n) : n < bound :=
  lt_of_accumulate hbound (parseDigits_eq_some h).2.2

theorem parseUnsigned_lt (hbound : 0 < bound) (h : parseUnsigned bound s = some n) :
    n < bound := by
  unfold parseUnsigned at h
  split at h <;> exact parseDigits_lt hbound h

theorem foldlM_accumulate (hacc : acc < bound) :
    digits.foldlM (accumulate bound) acc =
      if acc * 10 ^ digits.length + Digits.value 10 (digits.map digitValue) < bound then
        some (acc * 10 ^ digits.length + Digits.value 10 (digits.map digitValue))
      else none := by
  induction digits generalizing acc with
  | nil => simp [hacc]
  | cons digit digits ih =>
    have hvalue : acc * 10 ^ (digits.length + 1) +
        Digits.value 10 ((digit :: digits).map digitValue) =
        (acc * 10 + digitValue digit) * 10 ^ digits.length +
          Digits.value 10 (digits.map digitValue) := by
      rw [List.map_cons, Digits.value_cons, List.length_map, Nat.pow_succ']
      ring
    rw [List.foldlM_cons, List.length_cons, hvalue, accumulate]
    by_cases hnext : acc * 10 + digitValue digit < bound
    · rw [if_pos hnext]
      exact ih hnext
    · have hle : acc * 10 + digitValue digit ≤
          (acc * 10 + digitValue digit) * 10 ^ digits.length :=
        Nat.le_mul_of_pos_right _ (by positivity)
      rw [if_neg hnext, if_neg (by omega)]
      rfl

theorem parseDigits_eq_some_iff (hbound : 0 < bound) :
    parseDigits bound digits = some n ↔
      (digits ≠ [] ∧ ∀ digit ∈ digits, isAsciiDigit digit = true) ∧
        Digits.value 10 (digits.map digitValue) < bound ∧
        n = Digits.value 10 (digits.map digitValue) := by
  simp only [parseDigits, Option.ite_none_left_eq_some, not_or, Bool.not_eq_true',
    Bool.not_eq_false, List.all_eq_true, foldlM_accumulate hbound, Nat.zero_mul, Nat.zero_add,
    Option.ite_none_right_eq_some, Option.some.injEq, eq_comm (a := n), ne_eq]

theorem parseDigits_agree (h : parseDigits bound digits = some n)
    (h' : parseDigits bound' digits = some n') : n = n' := by
  rw [foldl_of_accumulate (parseDigits_eq_some h).2.2,
    foldl_of_accumulate (parseDigits_eq_some h').2.2]

theorem parseUnsigned_of_digits (h : parseDigits bound s.toList = some n) :
    parseUnsigned bound' s = parseDigits bound' s.toList := by
  unfold parseUnsigned
  split
  · rename_i hplus
    rw [hplus] at h
    exact absurd ((parseDigits_eq_some h).2.1 '+' List.mem_cons_self) (by decide)
  · rfl

end Signer.Text
