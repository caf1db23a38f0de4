import Signer.Eip712
import Signer.Text.Framing
import Signer.Text.Unsigned

/-!
# Decimal amounts in the enclave

The enclave reads a `uint256` amount into 32 bytes, by a long multiplication that carries from the
last byte to the first. The bytes are those of the number, so any other parser of decimal digits
that accepts the text reads the same amount.
-/

namespace Signer

open Text

/-- The inner loop of `parse_u256_be_decimal`, on the bytes last to first: multiply by ten and add
the carry. -/
def mulTenAdd : Bytes → Nat → Bytes × Nat
  | [], carry => ([], carry)
  | byte :: rest, carry =>
    let v := byte.toNat * 10 + carry
    let done := mulTenAdd rest (v / 256)
    (UInt8.ofNat (v % 256) :: done.1, done.2)

/-- One digit in `parse_u256_be_decimal`: a carry that is left over is an overflow. -/
def shiftInDigit (acc : Bytes) (digit : Char) : Option Bytes :=
  let next := mulTenAdd acc.reverse (digitValue digit)
  if next.2 ≠ 0 then none else some next.1.reverse

def parseU256BeDecimal (s : String) : Option Bytes :=
  let digits := (trim s).toList
  if digits = [] ∨ !digits.all isAsciiDigit then none
  else digits.foldlM shiftInDigit (List.replicate 32 0)

theorem mulTenAdd_leBytes (width n carry : Nat) (h : n < 256 ^ width) :
    mulTenAdd (leBytes width n) carry =
      (leBytes width (n * 10 + carry), (n * 10 + carry) / 256 ^ width) := by
  induction width generalizing n carry with
  | zero =>
    obtain rfl : n = 0 := by
      rw [Nat.pow_zero] at h
      omega
    simp [leBytes, beBytes, mulTenAdd]
  | succ width ih =>
    have hcons : ∀ m, leBytes (width + 1) m =
        UInt8.ofNat (m % 256) :: leBytes width (m / 256) := by
      intro m
      simp [leBytes, beBytes]
    have hlow : (UInt8.ofNat (n % 256)).toNat = n % 256 := by
      rw [UInt8.toNat_ofNat']
      omega
    have hrest := ih (n / 256) ((n % 256 * 10 + carry) / 256) (by
      rw [Nat.pow_succ] at h
      omega)
    -- what is carried on is what the product has above its last byte
    have hcarry : n / 256 * 10 + (n % 256 * 10 + carry) / 256 = (n * 10 + carry) / 256 := by omega
    have hbyte : (n % 256 * 10 + carry) % 256 = (n * 10 + carry) % 256 := by omega
    rw [hcarry] at hrest
    rw [hcons n, hcons (n * 10 + carry)]
    simp only [mulTenAdd, hlow, hrest, hbyte, Nat.div_div_eq_div_mul, Nat.pow_succ']

theorem shiftInDigit_beBytes {n : Nat} (h : n < 2 ^ 256) (digit : Char) :
    shiftInDigit (beBytes 32 n) digit = (accumulateDigit n digit).map (beBytes 32) := by
  have hpow : 256 ^ 32 = 2 ^ 256 := by decide
  have hmul := mulTenAdd_leBytes 32 n (digitValue digit) (by rw [hpow]; exact h)
  unfold shiftInDigit
  rw [show (beBytes 32 n).reverse = leBytes 32 n from rfl, hmul, hpow]
  unfold accumulateDigit
  rw [show digit.toNat - '0'.toNat = digitValue digit from rfl]
  by_cases hlt : n * 10 + digitValue digit < 2 ^ 256
  · simp only [hlt, Nat.div_eq_of_lt hlt, ne_eq, not_true_eq_false, if_true, if_false,
      Option.map_some, leBytes, List.reverse_reverse]
  · have hne : (n * 10 + digitValue digit) / 2 ^ 256 ≠ 0 := by
      rw [Nat.ne_zero_iff_zero_lt]
      exact Nat.div_pos (Nat.not_lt.mp hlt) (by decide)
    simp only [hlt, hne, ne_eq, not_false_eq_true, if_true, if_false, Option.map_none]

theorem parseU256BeDecimal_eq (s : String) :
    parseU256BeDecimal s = (parseU256Decimal s).map (beBytes 32) := by
  have hfold : ∀ (digits : List Char) (n : Nat), n < 2 ^ 256 →
      digits.foldlM shiftInDigit (beBytes 32 n) =
        (digits.foldlM accumulateDigit n).map (beBytes 32) := by
    intro digits
    induction digits with
    | nil => intro n _; rfl
    | cons digit digits ih =>
      intro n hn
      rw [List.foldlM_cons, List.foldlM_cons, shiftInDigit_beBytes hn]
      cases hnext : accumulateDigit n digit with
      | none => rfl
      | some next =>
        have hlt : next < 2 ^ 256 := by
          simp only [accumulateDigit, Option.ite_none_right_eq_some, Option.some.injEq] at hnext
          exact hnext.2 ▸ hnext.1
        exact ih next hlt
  have hzero : List.replicate 32 (0 : UInt8) = beBytes 32 0 := by decide
  unfold parseU256BeDecimal parseU256Decimal
  rw [hzero]
  dsimp only
  split
  · rfl
  · exact hfold _ 0 (by decide)

theorem parseU256Decimal_eq (s : String) :
    parseU256Decimal s = parseDigits (2 ^ 256) (trim s).toList := rfl

theorem parseU256Decimal_agrees {s : String} {value bound other : Nat}
    (h : parseU256Decimal s = some value)
    (hother : parseUnsigned bound (trim s) = some other) : value = other := by
  rw [parseU256Decimal_eq] at h
  rw [parseUnsigned_of_digits h] at hother
  exact parseDigits_agree h hother

end Signer
