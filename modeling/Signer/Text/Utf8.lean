import Signer.Text.Search

/-!
# Searching and slicing bytes

Rust works on the bytes of a string. A slice whose ends do not stand between characters, or not in
the string, stops the program. A needle of ASCII characters is found in the bytes exactly where it
is found in the characters, since no byte of a longer character is an ASCII one; so every end that
is computed from such searches stands between characters.
-/

namespace Signer.Text

/-! ### Bytes of characters -/

def isContinuation (b : UInt8) : Bool := 0x80 ≤ b ∧ b < 0xC0

def encode (cs : List Char) : Bytes := cs.flatMap String.utf8EncodeChar

def asciiByte (c : Char) : UInt8 := UInt8.ofNat c.toNat

theorem toNat_asciiByte {c : Char} (h : isAscii c = true) : (asciiByte c).toNat = c.toNat := by
  have hlt : c.toNat < 128 := of_decide_eq_true h
  simp only [asciiByte, UInt8.toNat_ofNat']
  omega

theorem toNat_ofNat_add {n k : ℕ} (h : n + k < 256) : (UInt8.ofNat (n + k)).toNat = n + k := by
  rw [UInt8.toNat_ofNat']
  omega

theorem utf8EncodeChar_eq_cons (c : Char) :
    ∃ b rest, String.utf8EncodeChar c = b :: rest ∧ isContinuation b = false ∧
      (∀ x ∈ rest, isContinuation x = true) ∧ (isAscii c = false → 192 ≤ b.toNat) := by
  have hcont : ∀ n, isContinuation (UInt8.ofNat (n % 64 + 128)) = true := by
    intro n
    have hn : (UInt8.ofNat (n % 64 + 128)).toNat = n % 64 + 128 := toNat_ofNat_add (by omega)
    simp only [isContinuation, UInt8.le_iff_toNat_le, UInt8.lt_iff_toNat_lt, hn, decide_eq_true_eq,
      UInt8.reduceToNat]
    omega
  have hhigh : ∀ b : UInt8, 192 ≤ b.toNat → isContinuation b = false ∧ 192 ≤ b.toNat := by
    intro b hb
    refine ⟨?_, hb⟩
    simp only [isContinuation, UInt8.le_iff_toNat_le, UInt8.lt_iff_toNat_lt, decide_eq_false_iff_not,
      UInt8.reduceToNat]
    omega
  by_cases hascii : isAscii c = true
  · have hlt : c.toNat < 128 := of_decide_eq_true hascii
    refine ⟨asciiByte c, [], utf8EncodeChar_of_isAscii hascii, ?_, by simp, by simp [hascii]⟩
    simp only [isContinuation, UInt8.le_iff_toNat_le, UInt8.lt_iff_toNat_lt, toNat_asciiByte hascii,
      decide_eq_false_iff_not, UInt8.reduceToNat]
    omega
  · have hge : ¬ c.val.toNat ≤ 127 := by
      intro hle
      exact hascii (decide_eq_true (Nat.lt_succ_of_le hle))
    rw [String.utf8EncodeChar, if_neg hge]
    split_ifs
    · have hb := hhigh (UInt8.ofNat (c.val.toNat / 64 % 32 + 192))
        (by rw [toNat_ofNat_add (by omega)]; omega)
      exact ⟨_, _, rfl, hb.1, List.forall_mem_cons.mpr ⟨hcont _, List.forall_mem_nil _⟩,
        fun _ => hb.2⟩
    · have hb := hhigh (UInt8.ofNat (c.val.toNat / 4096 % 16 + 224))
        (by rw [toNat_ofNat_add (by omega)]; omega)
      exact ⟨_, _, rfl, hb.1, List.forall_mem_cons.mpr ⟨hcont _, List.forall_mem_cons.mpr
        ⟨hcont _, List.forall_mem_nil _⟩⟩, fun _ => hb.2⟩
    · have hb := hhigh (UInt8.ofNat (c.val.toNat / 262144 % 8 + 240))
        (by rw [toNat_ofNat_add (by omega)]; omega)
      exact ⟨_, _, rfl, hb.1, List.forall_mem_cons.mpr ⟨hcont _, List.forall_mem_cons.mpr
        ⟨hcont _, List.forall_mem_cons.mpr ⟨hcont _, List.forall_mem_nil _⟩⟩⟩, fun _ => hb.2⟩

theorem asciiByte_inj {c d : Char} (hc : isAscii c = true) (hd : isAscii d = true) :
    asciiByte c = asciiByte d ↔ c = d := by
  refine ⟨fun h => ?_, congrArg asciiByte⟩
  have hnat := congrArg UInt8.toNat h
  rw [toNat_asciiByte hc, toNat_asciiByte hd] at hnat
  exact Char.toNat_inj.mp hnat

theorem asciiByte_lt {c : Char} (h : isAscii c = true) : (asciiByte c).toNat < 128 := by
  rw [toNat_asciiByte h]
  exact of_decide_eq_true h

theorem asciiByte_mem_utf8EncodeChar {c d : Char} (hd : isAscii d = true) :
    asciiByte d ∈ String.utf8EncodeChar c ↔ c = d := by
  constructor
  · intro hmem
    by_cases hc : isAscii c = true
    · rw [utf8EncodeChar_of_isAscii hc, List.mem_singleton] at hmem
      exact ((asciiByte_inj hd hc).mp hmem).symm
    · obtain ⟨b, rest, hencode, -, hrest, hhigh⟩ := utf8EncodeChar_eq_cons c
      have hb : 192 ≤ b.toNat := hhigh (Bool.eq_false_iff.mpr hc)
      have hlow := asciiByte_lt hd
      rw [hencode, List.mem_cons] at hmem
      rcases hmem with rfl | hmem
      · omega
      · have hcont := hrest _ hmem
        simp only [isContinuation, UInt8.le_iff_toNat_le, UInt8.lt_iff_toNat_lt,
          decide_eq_true_eq, UInt8.reduceToNat] at hcont
        omega
  · rintro rfl
    rw [utf8EncodeChar_of_isAscii hd]
    exact List.mem_singleton_self _

end Signer.Text
