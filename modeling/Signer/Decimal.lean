import Mathlib.Tactic.FieldSimp
import Mathlib.Tactic.Positivity
import Signer.Text.Basic
import Signer.Text.Digits

/-!
# Exact decimals

Quantities, prices and caps are decimal strings, compared and multiplied digit by
digit. A parsed decimal is a digit string without leading zeros and a scale. Every
operation is exact: its result denotes the rational number it should.
-/

namespace Signer

open Text Digits

/-- Digits without leading zeros, and a scale. -/
structure Decimal where
  digits : List ℕ
  scale : ℕ
  normal : Normal 10 digits

namespace Decimal

def toRat (d : Decimal) : ℚ := (value 10 d.digits : ℚ) / 10 ^ d.scale

end Decimal

def maxNotionalOperandLen : ℕ := 64

def digitOf (c : Char) : ℕ := c.toNat - '0'.toNat

theorem digitOf_lt {c : Char} (hc : isAsciiDigit c = true) : digitOf c < 10 := by
  simp only [isAsciiDigit, decide_eq_true_eq] at hc
  have hle : c.toNat ≤ '9'.toNat := hc.2
  have hge : '0'.toNat ≤ c.toNat := hc.1
  simp only [digitOf]
  have h9 : '9'.toNat = 57 := rfl
  have h0 : '0'.toNat = 48 := rfl
  omega

def intPart (s : String) : List Char := s.toList.takeWhile (· ≠ '.')

def fracPart (s : String) : List Char := (s.toList.dropWhile (· ≠ '.')).drop 1

/-- The tests `decimal_digits` makes before it reads the digits. -/
def isDecimal (s : String) : Bool :=
  s ≠ "" ∧ s.utf8ByteSize ≤ maxNotionalOperandLen ∧
    s.toList.all (fun c => isAsciiDigit c ∨ c = '.') ∧ s.toList.count '.' ≤ 1 ∧
    s.toList.any isAsciiDigit

def decimalValue (s : String) : ℚ :=
  (value 10 ((intPart s).map digitOf) : ℚ) +
    (value 10 ((fracPart s).map digitOf) : ℚ) / 10 ^ (fracPart s).length

theorem isAsciiDigit_of_mem_parts {s : String} (hs : isDecimal s = true) {c : Char}
    (hc : c ∈ intPart s ++ fracPart s) : isAsciiDigit c = true := by
  simp only [isDecimal, decide_eq_true_eq, List.all_eq_true, Bool.decide_or, Bool.or_eq_true] at hs
  obtain ⟨-, -, hall, hcount, -⟩ := hs
  have hdots : '.' ∉ intPart s ++ fracPart s := by
    intro hmem
    rcases List.mem_append.mp hmem with h | h
    · exact sep_notMem_takeWhile h
    · have hdot : '.' ∈ s.toList :=
        (List.dropWhile_sublist _).subset (List.mem_of_mem_drop h)
      have hpos := List.count_pos_iff.mpr h
      have hparts : s.toList = intPart s ++ '.' :: fracPart s := takeWhile_append_sep hdot
      rw [hparts, List.count_append, List.count_cons_self] at hcount
      omega
  have hmem : c ∈ s.toList := by
    rcases List.mem_append.mp hc with h | h
    · exact (List.takeWhile_sublist _).subset h
    · exact (List.dropWhile_sublist _).subset (List.mem_of_mem_drop h)
  rcases hall c hmem with h | h
  · exact h
  · exact absurd (by rwa [h] at hc) hdots

private theorem digits_lt_of_isDecimal {s : String} (hs : isDecimal s = true) :
    ∀ d ∈ (intPart s ++ fracPart s).map digitOf, d < 10 := by
  intro d hd
  obtain ⟨c, hc, rfl⟩ := List.mem_map.mp hd
  exact digitOf_lt (isAsciiDigit_of_mem_parts hs hc)

def decimalDigits (s : String) : Option Decimal :=
  if hs : isDecimal s = true then
    some
      { digits := ((intPart s ++ fracPart s).map digitOf).dropWhile (· = 0)
        scale := (fracPart s).length
        normal := normal_dropWhile_zero (digits_lt_of_isDecimal hs) }
  else none

theorem isDecimal_of_decimalDigits {s : String} {d : Decimal} (h : decimalDigits s = some d) :
    isDecimal s = true := by
  simp only [decimalDigits, Option.dite_none_right_eq_some] at h
  exact h.1

theorem decimalDigits_toRat {s : String} {d : Decimal} (h : decimalDigits s = some d) :
    d.toRat = decimalValue s := by
  simp only [decimalDigits, Option.dite_none_right_eq_some, Option.some.injEq] at h
  obtain ⟨_, rfl⟩ := h
  simp only [Decimal.toRat, value_dropWhile_zero, List.map_append, value_append, List.length_map,
    decimalValue]
  push_cast
  field_simp

/-! ### Multiplication -/

theorem ofDigits_modify_add {cells : List ℕ} {k : ℕ} (hk : k < cells.length) (x : ℕ) :
    Nat.ofDigits 10 (cells.modify k (· + x)) = Nat.ofDigits 10 cells + x * 10 ^ k := by
  induction cells generalizing k with
  | nil => simp at hk
  | cons c cells ih =>
    cases k with
    | zero =>
      simp only [List.modify_zero_cons, Nat.ofDigits_cons]
      ring
    | succ k =>
      simp only [List.modify_succ_cons, Nat.ofDigits_cons]
      rw [ih (by simpa using hk)]
      ring

/-- The inner loop of `mul_digits`: add `da` times every digit of `b`, from cell `i` on.
`b` is least significant digit first. -/
def addProducts (da : ℕ) : List ℕ → ℕ → List ℕ → List ℕ
  | [], _, acc => acc
  | db :: b, i, acc => addProducts da b (i + 1) (acc.modify i (· + da * db))

/-- The outer loop of `mul_digits`, over the digits of `a`, least significant first. -/
def accumulate (b : List ℕ) : List ℕ → ℕ → List ℕ → List ℕ
  | [], _, acc => acc
  | da :: a, i, acc => accumulate b a (i + 1) (addProducts da b i acc)

theorem addProducts_spec (da : ℕ) (b : List ℕ) (i : ℕ) (acc : List ℕ)
    (h : i + b.length ≤ acc.length) :
    (addProducts da b i acc).length = acc.length ∧
      Nat.ofDigits 10 (addProducts da b i acc) =
        Nat.ofDigits 10 acc + da * Nat.ofDigits 10 b * 10 ^ i := by
  induction b generalizing i acc with
  | nil => simp [addProducts]
  | cons db b ih =>
    simp only [List.length_cons] at h
    have hrest := ih (i + 1) (acc.modify i (· + da * db)) (by simp only [List.length_modify]; omega)
    refine ⟨by simpa [addProducts] using hrest.1, ?_⟩
    rw [addProducts, hrest.2, ofDigits_modify_add (by omega), Nat.ofDigits_cons, pow_succ]
    ring

theorem accumulate_spec (a b : List ℕ) (i : ℕ) (acc : List ℕ)
    (h : i + a.length + b.length ≤ acc.length) :
    (accumulate b a i acc).length = acc.length ∧
      Nat.ofDigits 10 (accumulate b a i acc) =
        Nat.ofDigits 10 acc + Nat.ofDigits 10 a * Nat.ofDigits 10 b * 10 ^ i := by
  induction a generalizing i acc with
  | nil => simp [accumulate]
  | cons da a ih =>
    simp only [List.length_cons] at h
    obtain ⟨hlen, hval⟩ := addProducts_spec da b i acc (by omega)
    have hrest := ih (i + 1) (addProducts da b i acc) (by omega)
    refine ⟨by rw [accumulate, hrest.1, hlen], ?_⟩
    rw [accumulate, hrest.2, hval, Nat.ofDigits_cons, pow_succ]
    ring

/-- The carry loop of `mul_digits`: the normalized cells and the carry left over. -/
def carryCells : ℕ → List ℕ → List ℕ × ℕ
  | carry, [] => ([], carry)
  | carry, cell :: cells =>
    let rest := carryCells ((cell + carry) / 10) cells
    ((cell + carry) % 10 :: rest.1, rest.2)

theorem carryCells_spec (carry : ℕ) (cells : List ℕ) :
    (carryCells carry cells).1.length = cells.length ∧
      (∀ d ∈ (carryCells carry cells).1, d < 10) ∧
      Nat.ofDigits 10 (carryCells carry cells).1 + (carryCells carry cells).2 * 10 ^ cells.length =
        Nat.ofDigits 10 cells + carry := by
  induction cells generalizing carry with
  | nil => simp [carryCells]
  | cons cell cells ih =>
    obtain ⟨hlen, hlt, hval⟩ := ih ((cell + carry) / 10)
    have hmod := Nat.mod_add_div (cell + carry) 10
    refine ⟨by simp [carryCells, hlen], ?_, ?_⟩
    · intro d hd
      rcases List.mem_cons.mp hd with rfl | hd
      · exact Nat.mod_lt _ (by norm_num)
      · exact hlt d hd
    · simp only [carryCells, Nat.ofDigits_cons, List.length_cons, pow_succ]
      calc _ = (cell + carry) % 10 + 10 *
        (Nat.ofDigits 10 (carryCells ((cell + carry) / 10) cells).1
              + (carryCells ((cell + carry) / 10) cells).2 * 10 ^ cells.length) := by ring
        _ = (cell + carry) % 10 + 10 * (Nat.ofDigits 10 cells + (cell + carry) / 10) := by rw [hval]
        _ = _ := by omega

/-- `mul_digits`: schoolbook multiplication. -/
def mulDigits (a b : List ℕ) : List ℕ :=
  if a = [] ∨ b = [] then []
  else
    let acc := accumulate b.reverse a.reverse 0 (List.replicate (a.length + b.length) 0)
    (carryCells 0 acc).1.reverse.dropWhile (· = 0)

theorem normal_mulDigits (a b : List ℕ) : Normal 10 (mulDigits a b) := by
  unfold mulDigits
  split
  · exact ⟨by simp, by simp⟩
  · refine normal_dropWhile_zero fun d hd => ?_
    exact (carryCells_spec _ _).2.1 d (List.mem_reverse.mp hd)

theorem ofDigits_accumulate (a b : List ℕ) :
    Nat.ofDigits 10 (accumulate b.reverse a.reverse 0 (List.replicate (a.length + b.length) 0)) =
      value 10 a * value 10 b := by
  obtain ⟨-, hval⟩ := accumulate_spec a.reverse b.reverse 0
    (List.replicate (a.length + b.length) 0) (by simp)
  rw [Nat.ofDigits_replicate_zero, Nat.zero_add, pow_zero, Nat.mul_one] at hval
  exact hval

theorem carryCells_accumulate {a b : List ℕ} (ha : Normal 10 a) (hb : Normal 10 b) :
    (carryCells 0
      (accumulate b.reverse a.reverse 0 (List.replicate (a.length + b.length) 0))).2 = 0 := by
  set n := a.length + b.length with hn
  set acc := accumulate b.reverse a.reverse 0 (List.replicate n 0) with hacc
  obtain ⟨hlen, -⟩ := accumulate_spec a.reverse b.reverse 0 (List.replicate n 0) (by simp [hn])
  rw [← hacc, List.length_replicate] at hlen
  obtain ⟨-, -, hcarry⟩ := carryCells_spec 0 acc
  rw [hacc, ofDigits_accumulate, ← hacc, hlen, Nat.add_zero] at hcarry
  have hbound : value 10 a * value 10 b < 10 ^ n := by
    rw [hn, pow_add]
    exact Nat.mul_lt_mul'' (value_lt_pow (by norm_num) ha.digits_lt)
      (value_lt_pow (by norm_num) hb.digits_lt)
  by_contra hne
  have hone : 10 ^ n ≤ (carryCells 0 acc).2 * 10 ^ n :=
    Nat.le_mul_of_pos_left _ (Nat.pos_of_ne_zero hne)
  omega

theorem value_mulDigits {a b : List ℕ} (ha : Normal 10 a) (hb : Normal 10 b) :
    value 10 (mulDigits a b) = value 10 a * value 10 b := by
  unfold mulDigits
  split
  · rename_i h
    rcases h with rfl | rfl <;> simp
  · have hcarry := (carryCells_spec 0
      (accumulate b.reverse a.reverse 0 (List.replicate (a.length + b.length) 0))).2.2
    rw [carryCells_accumulate ha hb, ofDigits_accumulate, Nat.zero_mul, Nat.add_zero,
      Nat.add_zero] at hcarry
    rw [value_dropWhile_zero, value, List.reverse_reverse, hcarry]

def Decimal.mul (x y : Decimal) : Decimal where
  digits := mulDigits x.digits y.digits
  scale := x.scale + y.scale
  normal := normal_mulDigits _ _

@[simp]
theorem Decimal.toRat_mul (x y : Decimal) : (x.mul y).toRat = x.toRat * y.toRat := by
  simp only [toRat, mul, value_mulDigits x.normal y.normal, pow_add]
  push_cast
  field_simp

/-! ### Addition -/

/-- The digit loop of `add_digits`, least significant digit first. -/
def addCells : ℕ → List ℕ → List ℕ → List ℕ
  | carry, [], [] => if 0 < carry then [carry] else []
  | carry, x :: xs, [] => (x + carry) % 10 :: addCells ((x + carry) / 10) xs []
  | carry, [], y :: ys => (y + carry) % 10 :: addCells ((y + carry) / 10) [] ys
  | carry, x :: xs, y :: ys => (x + y + carry) % 10 :: addCells ((x + y + carry) / 10) xs ys

theorem ofDigits_addCells (carry : ℕ) (xs ys : List ℕ) :
    Nat.ofDigits 10 (addCells carry xs ys) =
      Nat.ofDigits 10 xs + Nat.ofDigits 10 ys + carry := by
  fun_induction addCells carry xs ys with
  | case1 carry hpos => simp
  | case2 carry hpos => simp; omega
  | case3 carry x xs ih => simp only [Nat.ofDigits_cons, ih, Nat.ofDigits_nil]; omega
  | case4 carry y ys ih => simp only [Nat.ofDigits_cons, ih, Nat.ofDigits_nil]; omega
  | case5 carry x xs y ys ih => simp only [Nat.ofDigits_cons, ih]; omega

theorem addCells_lt (carry : ℕ) (xs ys : List ℕ) (hcarry : carry ≤ 1) (hxs : ∀ d ∈ xs, d < 10)
    (hys : ∀ d ∈ ys, d < 10) : ∀ d ∈ addCells carry xs ys, d < 10 := by
  fun_induction addCells carry xs ys with
  | case1 carry hpos => simp; omega
  | case2 carry hpos => simp
  | case3 carry x xs ih =>
    have hx := hxs x (by simp)
    simp only [List.mem_cons, forall_eq_or_imp]
    exact ⟨by omega, ih (by omega) (fun d hd => hxs d (by simp [hd])) (by simp)⟩
  | case4 carry y ys ih =>
    have hy := hys y (by simp)
    simp only [List.mem_cons, forall_eq_or_imp]
    exact ⟨by omega, ih (by omega) (by simp) (fun d hd => hys d (by simp [hd]))⟩
  | case5 carry x xs y ys ih =>
    have hx := hxs x (by simp)
    have hy := hys y (by simp)
    simp only [List.mem_cons, forall_eq_or_imp]
    exact ⟨by omega, ih (by omega) (fun d hd => hxs d (by simp [hd]))
      (fun d hd => hys d (by simp [hd]))⟩

/-- The digits of a number times `10 ^ n`; zero keeps its empty digit string. -/
def shiftDigits (ds : List ℕ) (n : ℕ) : List ℕ :=
  if ds = [] then [] else ds ++ List.replicate n 0

theorem value_shiftDigits (ds : List ℕ) (n : ℕ) :
    value 10 (shiftDigits ds n) = value 10 ds * 10 ^ n := by
  unfold shiftDigits
  split
  · rename_i h
    simp [h]
  · exact value_append_zeros ds n

theorem normal_shiftDigits {ds : List ℕ} (hds : Normal 10 ds) (n : ℕ) :
    Normal 10 (shiftDigits ds n) := by
  unfold shiftDigits
  split
  · exact ⟨by simp, by simp⟩
  · rename_i h
    refine ⟨fun d hd => ?_, ?_⟩
    · rcases List.mem_append.mp hd with hd | hd
      · exact hds.digits_lt d hd
      · rw [List.eq_of_mem_replicate hd]
        norm_num
    · rw [List.head?_append_of_ne_nil _ h]
      exact hds.head_ne_zero

/-- `add_digits`: both operands are brought to the larger scale and added. -/
def addDigits (a : List ℕ) (aScale : ℕ) (b : List ℕ) (bScale : ℕ) : List ℕ :=
  let x := shiftDigits a (max aScale bScale - aScale)
  let y := shiftDigits b (max aScale bScale - bScale)
  (addCells 0 x.reverse y.reverse).reverse.dropWhile (· = 0)

def Decimal.add (x y : Decimal) : Decimal where
  digits := addDigits x.digits x.scale y.digits y.scale
  scale := max x.scale y.scale
  normal := by
    refine normal_dropWhile_zero fun d hd => ?_
    refine addCells_lt 0 _ _ (Nat.zero_le 1) ?_ ?_ d (List.mem_reverse.mp hd)
    · exact fun d hd => (normal_shiftDigits x.normal _).digits_lt d (List.mem_reverse.mp hd)
    · exact fun d hd => (normal_shiftDigits y.normal _).digits_lt d (List.mem_reverse.mp hd)

theorem shiftDigits_div (ds : List ℕ) {scale m : ℕ} (h : scale ≤ m) :
    (value 10 (shiftDigits ds (m - scale)) : ℚ) / 10 ^ m = (value 10 ds : ℚ) / 10 ^ scale := by
  obtain ⟨k, rfl⟩ := Nat.exists_eq_add_of_le h
  rw [value_shiftDigits, Nat.add_sub_cancel_left, pow_add]
  push_cast
  field_simp

@[simp]
theorem Decimal.toRat_add (x y : Decimal) : (x.add y).toRat = x.toRat + y.toRat := by
  have hvalue : value 10 (x.add y).digits =
      value 10 (shiftDigits x.digits (max x.scale y.scale - x.scale)) +
        value 10 (shiftDigits y.digits (max x.scale y.scale - y.scale)) := by
    simp only [add, addDigits, value_dropWhile_zero]
    rw [value, List.reverse_reverse, ofDigits_addCells, Nat.add_zero]
    rfl
  rw [toRat, hvalue, Nat.cast_add, add_div]
  exact congrArg₂ (· + ·) (shiftDigits_div _ (le_max_left _ _))
    (shiftDigits_div _ (le_max_right _ _))

def Decimal.zero : Decimal where
  digits := []
  scale := 0
  normal := ⟨by simp, by simp⟩

@[simp]
theorem Decimal.toRat_zero : Decimal.zero.toRat = 0 := by simp [toRat, zero]

end Signer
