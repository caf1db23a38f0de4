import Signer.Text.Basic

/-!
# Base64

The standard alphabet with canonical padding.
-/

namespace Signer.Text

def base64Digit (n : Nat) : Char :=
  if n < 26 then Char.ofNat (65 + n)
  else if n < 52 then Char.ofNat (71 + n)
  else if n < 62 then Char.ofNat (n - 4)
  else if n = 62 then '+'
  else '/'

def base64Value? (c : Char) : Option Nat :=
  if 'A' ≤ c ∧ c ≤ 'Z' then some (c.toNat - 65)
  else if 'a' ≤ c ∧ c ≤ 'z' then some (c.toNat - 71)
  else if '0' ≤ c ∧ c ≤ '9' then some (c.toNat + 4)
  else if c = '+' then some 62
  else if c = '/' then some 63
  else none

/-- Three bytes become four characters; a last group of one or two bytes is filled up with `=`. -/
def base64Chars : Bytes → List Char
  | [] => []
  | [a] => [base64Digit (a.toNat / 4), base64Digit (a.toNat % 4 * 16), '=', '=']
  | [a, b] =>
    [base64Digit (a.toNat / 4), base64Digit (a.toNat % 4 * 16 + b.toNat / 16),
      base64Digit (b.toNat % 16 * 4), '=']
  | a :: b :: c :: rest =>
    base64Digit (a.toNat / 4) :: base64Digit (a.toNat % 4 * 16 + b.toNat / 16) ::
      base64Digit (b.toNat % 16 * 4 + c.toNat / 64) :: base64Digit (c.toNat % 64) ::
      base64Chars rest

/-- Takes full groups only, and refuses padding bits that are not zero. -/
def base64Groups? : List Char → Option Bytes
  | [] => some []
  | w :: x :: y :: z :: rest => do
    let w ← base64Value? w
    let x ← base64Value? x
    let a := UInt8.ofNat (w * 4 + x / 16)
    if y = '=' ∧ z = '=' ∧ rest = [] then
      if x % 16 = 0 then some [a] else none
    else
      let y ← base64Value? y
      let b := UInt8.ofNat (x % 16 * 16 + y / 4)
      if z = '=' ∧ rest = [] then
        if y % 4 = 0 then some [a, b] else none
      else
        let z ← base64Value? z
        let bytes ← base64Groups? rest
        some (a :: b :: UInt8.ofNat (y % 4 * 64 + z) :: bytes)
  | _ => none

def base64Length (n : Nat) : Nat := 4 * ((n + 2) / 3)

def base64Encode (b : Bytes) : String := .ofList (base64Chars b)

def base64Decode (s : String) : Option Bytes := base64Groups? s.toList

theorem base64Value?_digit {n : Nat} (hn : n < 64) : base64Value? (base64Digit n) = some n := by
  have hall : ∀ n : Fin 64, base64Value? (base64Digit n) = some n.val := by decide
  exact hall ⟨n, hn⟩

theorem base64Digit_ne_pad {n : Nat} (hn : n < 64) : base64Digit n ≠ '=' := by
  have hall : ∀ n : Fin 64, base64Digit n ≠ '=' := by decide
  exact hall ⟨n, hn⟩

theorem ofNat_eq_of_toNat {n : Nat} {a : UInt8} (h : n = a.toNat) : UInt8.ofNat n = a := by
  rw [h, UInt8.ofNat_toNat]

theorem base64Groups?_chars (b : Bytes) : base64Groups? (base64Chars b) = some b := by
  fun_induction base64Chars b with
  | case1 => rfl
  | case2 a =>
    have ha := a.toNat_lt
    have hfirst : UInt8.ofNat (a.toNat / 4 * 4 + a.toNat % 4 * 16 / 16) = a :=
      ofNat_eq_of_toNat (by omega)
    simp only [base64Groups?, base64Value?_digit (n := a.toNat / 4) (by omega),
      base64Value?_digit (n := a.toNat % 4 * 16) (by omega), Option.bind_eq_bind, Option.bind_some,
      hfirst]
    simp
  | case3 a b =>
    have ha := a.toNat_lt
    have hb := b.toNat_lt
    have hfirst : UInt8.ofNat
        (a.toNat / 4 * 4 + (a.toNat % 4 * 16 + b.toNat / 16) / 16) = a :=
      ofNat_eq_of_toNat (by omega)
    have hsecond : UInt8.ofNat
        ((a.toNat % 4 * 16 + b.toNat / 16) % 16 * 16 + b.toNat % 16 * 4 / 4) = b :=
      ofNat_eq_of_toNat (by omega)
    simp only [base64Groups?, base64Value?_digit (n := a.toNat / 4) (by omega),
      base64Value?_digit (n := a.toNat % 4 * 16 + b.toNat / 16) (by omega),
      base64Value?_digit (n := b.toNat % 16 * 4) (by omega),
      base64Digit_ne_pad (n := b.toNat % 16 * 4) (by omega), Option.bind_eq_bind, Option.bind_some,
      false_and, if_false, hfirst, hsecond]
    simp
  | case4 a b c rest ih =>
    have ha := a.toNat_lt
    have hb := b.toNat_lt
    have hc := c.toNat_lt
    have hfirst : UInt8.ofNat
        (a.toNat / 4 * 4 + (a.toNat % 4 * 16 + b.toNat / 16) / 16) = a :=
      ofNat_eq_of_toNat (by omega)
    have hsecond : UInt8.ofNat ((a.toNat % 4 * 16 + b.toNat / 16) % 16 * 16 +
        (b.toNat % 16 * 4 + c.toNat / 64) / 4) = b :=
      ofNat_eq_of_toNat (by omega)
    have hthird : UInt8.ofNat
        ((b.toNat % 16 * 4 + c.toNat / 64) % 4 * 64 + c.toNat % 64) = c :=
      ofNat_eq_of_toNat (by omega)
    simp only [base64Groups?, base64Value?_digit (n := a.toNat / 4) (by omega),
      base64Value?_digit (n := a.toNat % 4 * 16 + b.toNat / 16) (by omega),
      base64Value?_digit (n := b.toNat % 16 * 4 + c.toNat / 64) (by omega),
      base64Value?_digit (n := c.toNat % 64) (by omega),
      base64Digit_ne_pad (n := b.toNat % 16 * 4 + c.toNat / 64) (by omega),
      base64Digit_ne_pad (n := c.toNat % 64) (by omega), Option.bind_eq_bind, Option.bind_some,
      false_and, if_false, hfirst, hsecond, hthird, ih]

/-- What is encoded is read back. -/
theorem base64Decode_encode (b : Bytes) : base64Decode (base64Encode b) = some b := by
  rw [base64Decode, base64Encode, String.toList_ofList, base64Groups?_chars]

theorem length_base64Chars (b : Bytes) : (base64Chars b).length = base64Length b.length := by
  fun_induction base64Chars b with
  | case1 => rfl
  | case2 a => simp [base64Length]
  | case3 a b => simp [base64Length]
  | case4 a b c rest ih =>
    simp only [List.length_cons, ih, base64Length]
    omega

theorem forall_mem_base64Chars {P : Char → Prop} (hdigit : ∀ n : Fin 64, P (base64Digit n))
    (hpad : P '=') (b : Bytes) : ∀ c ∈ base64Chars b, P c := by
  have hdigit : ∀ {n}, n < 64 → P (base64Digit n) := fun hn => hdigit ⟨_, hn⟩
  fun_induction base64Chars b with
  | case1 => simp
  | case2 a =>
    have ha := a.toNat_lt
    simp only [List.forall_mem_cons]
    exact ⟨hdigit (by omega), hdigit (by omega), hpad, hpad, by simp⟩
  | case3 a b =>
    have ha := a.toNat_lt
    have hb := b.toNat_lt
    simp only [List.forall_mem_cons]
    exact ⟨hdigit (by omega), hdigit (by omega), hdigit (by omega), hpad, by simp⟩
  | case4 a b c rest ih =>
    have ha := a.toNat_lt
    have hb := b.toNat_lt
    have hc := c.toNat_lt
    simp only [List.forall_mem_cons]
    exact ⟨hdigit (by omega), hdigit (by omega), hdigit (by omega), hdigit (by omega), ih⟩

theorem utf8ByteSize_base64Encode (b : Bytes) :
    (base64Encode b).utf8ByteSize = base64Length b.length := by
  have hascii : ∀ c ∈ (base64Encode b).toList, isAscii c = true := by
    rw [base64Encode, String.toList_ofList]
    exact forall_mem_base64Chars (by decide) (by decide) b
  rw [utf8ByteSize_of_isAscii hascii, base64Encode, String.length_ofList, length_base64Chars]

example : base64Encode [98, 108, 111, 98] = "YmxvYg==" := by decide

end Signer.Text
