import Signer.Text.Basic

/-!
# Hexadecimal texts

Keys, nonces and signatures travel as hexadecimal text.
-/

namespace Signer.Text

theorem bytes_ofList_cons (c : Char) (cs : List Char) :
    bytes (.ofList (c :: cs)) = bytes (String.singleton c) ++ bytes (.ofList cs) := by
  rw [← bytes_append]
  congr 1
  apply String.toList_injective
  simp

theorem hexValue?_digitChar {d : Nat} (hd : d < 16) :
    ∃ b, bytes (String.singleton (Nat.digitChar d)) = [b] ∧ hexValue? b = some d := by
  have hall : ∀ d : Fin 16,
      (bytes (String.singleton (Nat.digitChar d))).map hexValue? = [some d.val] := by
    decide
  exact List.map_eq_singleton_iff.mp (hall ⟨d, hd⟩)

/-- What is encoded is read back. -/
theorem hexDecode_hexEncode (b : Bytes) : hexDecode (hexEncode b) = some b := by
  induction b with
  | nil => rfl
  | cons x rest ih =>
    have hx := x.toNat_lt
    obtain ⟨hi, hhi, hhi'⟩ := hexValue?_digitChar (d := x.toNat / 16) (by omega)
    obtain ⟨lo, hlo, hlo'⟩ := hexValue?_digitChar (d := x.toNat % 16) (by omega)
    have hbyte : UInt8.ofNat (x.toNat / 16 * 16 + x.toNat % 16) = x := by
      rw [Nat.div_add_mod', UInt8.ofNat_toNat]
    simp only [hexDecode, hexEncode, List.flatMap_cons, List.cons_append, List.nil_append,
      bytes_ofList_cons, hhi, hlo, hexPairs?, hhi', hlo'] at ih ⊢
    simp only [ih, Option.bind_eq_bind, Option.bind_some, Option.pure_def, hbyte]

theorem utf8ByteSize_hexEncode (b : Bytes) : (hexEncode b).utf8ByteSize = 2 * b.length := by
  induction b with
  | nil => rfl
  | cons x rest ih =>
    have hx := x.toNat_lt
    obtain ⟨hi, hhi, -⟩ := hexValue?_digitChar (d := x.toNat / 16) (by omega)
    obtain ⟨lo, hlo, -⟩ := hexValue?_digitChar (d := x.toNat % 16) (by omega)
    simp only [← length_bytes, hexEncode, List.flatMap_cons, List.cons_append, List.nil_append,
      bytes_ofList_cons, hhi, hlo, List.length_cons] at ih ⊢
    omega

theorem forall_mem_hexEncode {P : Char → Prop} (hdigit : ∀ d : Fin 16, P (Nat.digitChar d))
    (b : Bytes) : ∀ c ∈ (hexEncode b).toList, P c := by
  intro c h
  rw [hexEncode, String.toList_ofList, List.mem_flatMap] at h
  obtain ⟨x, -, hc⟩ := h
  have hx := x.toNat_lt
  rcases List.mem_pair.mp hc with rfl | rfl
  · exact hdigit ⟨x.toNat / 16, by omega⟩
  · exact hdigit ⟨x.toNat % 16, by omega⟩

theorem trim_of_forall {s : String} (h : ∀ c ∈ s.toList, isWhitespace c = false) : trim s = s := by
  have hfixed : ∀ cs : List Char, (∀ c ∈ cs, isWhitespace c = false) →
      cs.dropWhile isWhitespace = cs := by
    intro cs hcs
    cases cs with
    | nil => rfl
    | cons c cs => exact List.dropWhile_cons_of_neg (by simp [hcs c List.mem_cons_self])
  rw [trim, hfixed _ h, hfixed _ fun c hc => h c (List.mem_reverse.mp hc), List.reverse_reverse,
    String.ofList_toList]

@[simp]
theorem hexDecodeExact_hexEncode (n : Nat) (b : Bytes) :
    hexDecodeExact n (hexEncode b) = if b.length = n then some b else none := by
  rw [hexDecodeExact, hexDecode_hexEncode, Option.filter_some]
  simp

theorem length_of_hexDecodeExact {n : Nat} {s : String} {b : Bytes}
    (h : hexDecodeExact n s = some b) :
    b.length = n := by
  rw [hexDecodeExact, Option.filter_eq_some_iff] at h
  simpa using h.2

/-- Every decoder of the enclave trims its input first. -/
@[simp]
theorem hexDecodeExact_trim_hexEncode (n : Nat) (b : Bytes) :
    hexDecodeExact n (trim (hexEncode b)) = if b.length = n then some b else none := by
  rw [trim_of_forall (forall_mem_hexEncode (by decide) b), hexDecodeExact_hexEncode]

end Signer.Text
