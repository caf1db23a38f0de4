import Mathlib.Algebra.Ring.Nat
import Signer.Text.Basic

/-!
# Length-prefixed framing

A concatenation of length-prefixed fields determines each of them.
-/

namespace Signer.Text

@[simp]
theorem length_beBytes (width n : ℕ) : (beBytes width n).length = width := by
  induction width generalizing n with
  | zero => rfl
  | succ width ih => simp [beBytes, ih]

theorem beBytes_injective {width m n : ℕ} (hm : m < 256 ^ width) (hn : n < 256 ^ width)
    (h : beBytes width m = beBytes width n) : m = n := by
  induction width generalizing m n with
  | zero =>
    rw [Nat.pow_zero] at hm hn
    omega
  | succ width ih =>
    rw [Nat.pow_succ] at hm hn
    obtain ⟨hinit, hlast⟩ := List.append_inj h (by simp)
    have hdiv : m / 256 = n / 256 := ih (by omega) (by omega) hinit
    have hmod : m % 256 = n % 256 := by
      have hbyte := congrArg UInt8.toNat (List.cons.inj hlast).1
      simpa using hbyte
    omega

theorem beBytes_mod (width n : ℕ) : beBytes width (n % 256 ^ width) = beBytes width n := by
  induction width generalizing n with
  | zero => rfl
  | succ width ih =>
    have hdiv : n % 256 ^ (width + 1) / 256 = n / 256 % 256 ^ width := by
      rw [Nat.pow_succ', Nat.mod_mul_right_div_self]
    have hmod : n % 256 ^ (width + 1) % 256 = n % 256 :=
      Nat.mod_mod_of_dvd n (Nat.dvd_mul_left 256 (256 ^ width))
    simp only [beBytes, hdiv, hmod, ih]

@[simp]
theorem length_leBytes (width n : ℕ) : (leBytes width n).length = width := by
  simp [leBytes]

theorem mod_eq_of_leBytes {width m n : ℕ} (h : leBytes width m = leBytes width n) :
    m % 256 ^ width = n % 256 ^ width := by
  have hpos : 0 < 256 ^ width := Nat.pow_pos (by decide)
  refine beBytes_injective (Nat.mod_lt m hpos) (Nat.mod_lt n hpos) ?_
  rw [beBytes_mod, beBytes_mod]
  exact List.reverse_injective h

/-- A field behind its length, which is written in `width` bytes. -/
def lengthPrefixed (width : ℕ) (b : Bytes) : Bytes := beBytes width b.length ++ b

/-- A field is read back from the front of any byte string. -/
theorem lengthPrefixed_append_inj {width : ℕ} {a b rest₁ rest₂ : Bytes}
    (ha : a.length < 256 ^ width) (hb : b.length < 256 ^ width)
    (h : lengthPrefixed width a ++ rest₁ = lengthPrefixed width b ++ rest₂) :
    a = b ∧ rest₁ = rest₂ := by
  simp only [lengthPrefixed, List.append_assoc] at h
  obtain ⟨hlen, hrest⟩ := List.append_inj h (by simp)
  exact List.append_inj hrest (beBytes_injective ha hb hlen)

/-- A field that may be absent, behind a byte that says whether it is there. -/
def optionPrefixed (width : ℕ) : Option Bytes → Bytes
  | none => [0]
  | some b => 1 :: lengthPrefixed width b

theorem optionPrefixed_append_inj {width : ℕ} {a b : Option Bytes} {rest₁ rest₂ : Bytes}
    (ha : ∀ x ∈ a, x.length < 256 ^ width) (hb : ∀ x ∈ b, x.length < 256 ^ width)
    (h : optionPrefixed width a ++ rest₁ = optionPrefixed width b ++ rest₂) :
    a = b ∧ rest₁ = rest₂ := by
  cases a with
  | none =>
    cases b with
    | none => exact ⟨rfl, List.append_cancel_left h⟩
    | some b => simp [optionPrefixed] at h
  | some a =>
    cases b with
    | none => simp [optionPrefixed] at h
    | some b =>
      simp only [optionPrefixed, List.cons_append, List.cons.injEq, true_and] at h
      obtain ⟨rfl, hrest⟩ := lengthPrefixed_append_inj (ha a rfl) (hb b rfl) h
      exact ⟨rfl, hrest⟩

end Signer.Text
