import Mathlib.Data.List.Infix
import Mathlib.Data.List.TakeWhile

/-!
# Strings and bytes

The string operations of the Rust standard library that request handling uses, over
`String` and its list of characters. Lengths of strings are byte lengths.
-/

namespace Signer

abbrev Bytes := List UInt8

theorem do_eq_some {α β : Type} {o : Option α} {f : α → Option β} {b : β} :
    (o >>= f) = some b ↔ ∃ a, o = some a ∧ f a = some b :=
  Option.bind_eq_some_iff

theorem pure_eq_some {α : Type} {a b : α} : (pure a : Option α) = some b ↔ a = b :=
  Option.some_inj

theorem bind_eq_ok {ε α β : Type} {x : Except ε α} {f : α → Except ε β} {b : β} :
    x >>= f = .ok b ↔ ∃ a, x = .ok a ∧ f a = .ok b := by
  cases x <;> simp [bind, Except.bind]

namespace Text

/-- The UTF-8 bytes of a string (`str::as_bytes`). -/
def bytes (s : String) : Bytes := s.toByteArray.data.toList

@[simp]
theorem bytes_append (s t : String) : bytes (s ++ t) = bytes s ++ bytes t := by
  simp [bytes, String.toByteArray_append, ByteArray.data_append]

theorem bytes_injective : Function.Injective bytes := by
  intro s t h
  apply String.toByteArray_inj.mp
  apply ByteArray.ext
  exact Array.toList_inj.mp h

@[simp]
theorem length_bytes (s : String) : (bytes s).length = s.utf8ByteSize := rfl

theorem bytes_eq_flatMap (s : String) : bytes s = s.toList.flatMap String.utf8EncodeChar := by
  have h : (String.ofList s.toList).toByteArray = s.toList.utf8Encode := String.toByteArray_ofList
  rw [String.ofList_toList] at h
  rw [bytes, h, List.utf8Encode]
  simp

def isAscii (c : Char) : Bool := c.toNat < 128

theorem utf8EncodeChar_of_isAscii {c : Char} (h : isAscii c = true) :
    String.utf8EncodeChar c = [UInt8.ofNat c.toNat] := by
  have hle : c.val.toNat ≤ 127 := Nat.le_of_lt_succ (of_decide_eq_true h)
  rw [String.utf8EncodeChar, if_pos hle]
  rfl

theorem bytes_of_isAscii {s : String} (h : ∀ c ∈ s.toList, isAscii c = true) :
    bytes s = s.toList.map fun c => UInt8.ofNat c.toNat := by
  rw [bytes_eq_flatMap, List.flatMap_congr fun c hc => utf8EncodeChar_of_isAscii (h c hc)]
  exact List.flatMap_pure_eq_map _ _

theorem utf8ByteSize_of_isAscii {s : String} (h : ∀ c ∈ s.toList, isAscii c = true) :
    s.utf8ByteSize = s.length := by
  rw [← length_bytes, bytes_of_isAscii h, List.length_map, String.length_toList]

def startsWith (s start : String) : Bool := start.toList.isPrefixOf s.toList

theorem startsWith_iff {s start : String} :
    startsWith s start = true ↔ start.toList <+: s.toList :=
  List.isPrefixOf_iff_prefix

def stripPrefix (start s : String) : Option String :=
  if startsWith s start then some (.ofList (s.toList.drop start.toList.length)) else none

theorem stripPrefix_eq_some_iff {start s rest : String} :
    stripPrefix start s = some rest ↔ s = start ++ rest := by
  simp only [stripPrefix, Option.ite_none_right_eq_some, Option.some.injEq, startsWith_iff]
  constructor
  · rintro ⟨⟨tail, htail⟩, rfl⟩
    apply String.toList_inj.mp
    simp [← htail]
  · rintro rfl
    exact ⟨⟨rest.toList, by simp⟩, by simp⟩

def endsWith (s tail : String) : Bool := tail.toList.isSuffixOf s.toList

/-- `char::is_whitespace`: the Unicode `White_Space` property. -/
def isWhitespace (c : Char) : Bool :=
  let n := c.toNat
  (9 ≤ n ∧ n ≤ 13) ∨ n = 0x20 ∨ n = 0x85 ∨ n = 0xA0 ∨ n = 0x1680 ∨ (0x2000 ≤ n ∧ n ≤ 0x200A) ∨
    n = 0x2028 ∨ n = 0x2029 ∨ n = 0x202F ∨ n = 0x205F ∨ n = 0x3000

def trim (s : String) : String :=
  .ofList (((s.toList.dropWhile isWhitespace).reverse.dropWhile isWhitespace).reverse)

def toAsciiUppercase (s : String) : String := .ofList (s.toList.map Char.toUpper)

def toAsciiLowercase (s : String) : String := .ofList (s.toList.map Char.toLower)

def eqIgnoreAsciiCase (s t : String) : Bool := toAsciiLowercase s = toAsciiLowercase t

def isAsciiDigit (c : Char) : Bool := '0' ≤ c ∧ c ≤ '9'

def isAsciiAlphanumeric (c : Char) : Bool :=
  isAsciiDigit c ∨ ('a' ≤ c ∧ c ≤ 'z') ∨ ('A' ≤ c ∧ c ≤ 'Z')

def isAsciiHexdigit (c : Char) : Bool :=
  isAsciiDigit c ∨ ('a' ≤ c ∧ c ≤ 'f') ∨ ('A' ≤ c ∧ c ≤ 'F')

theorem takeWhile_append_sep {α : Type} [DecidableEq α] {sep : α} {cs : List α} (h : sep ∈ cs) :
    cs = cs.takeWhile (· ≠ sep) ++ sep :: (cs.dropWhile (· ≠ sep)).drop 1 := by
  induction cs with
  | nil => simp at h
  | cons c cs ih =>
    by_cases hc : c = sep
    · simp [hc]
    · have hmem : sep ∈ cs := (List.mem_cons.mp h).resolve_left fun he => hc he.symm
      have htail := ih hmem
      simpa [List.takeWhile_cons, List.dropWhile_cons, hc] using htail

theorem sep_notMem_takeWhile {α : Type} [DecidableEq α] {sep : α} {cs : List α} :
    sep ∉ cs.takeWhile (· ≠ sep) := by
  intro h
  simpa using List.mem_takeWhile_imp h

theorem takeWhile_sep {α : Type} [DecidableEq α] {sep : α} {before after : List α}
    (h : sep ∉ before) :
    (before ++ sep :: after).takeWhile (· ≠ sep) = before ∧
      (before ++ sep :: after).dropWhile (· ≠ sep) = sep :: after := by
  have hne : ∀ c ∈ before, decide (c ≠ sep) = true := by
    intro c hc
    have hne : c ≠ sep := fun heq => h (by rwa [heq] at hc)
    simpa using hne
  constructor
  · rw [List.takeWhile_append_of_pos hne, List.takeWhile_cons_of_neg (by simp), List.append_nil]
  · rw [List.dropWhile_append_of_pos hne, List.dropWhile_cons_of_neg (by simp)]

/-- `str::split` on one character. -/
def split (sep : Char) (s : String) : List String :=
  (s.toList.splitOn sep).map String.ofList

/-- `str::split_once`: the parts before and after the first separator. -/
def splitOnce (sep : Char) (s : String) : Option (String × String) :=
  if sep ∈ s.toList then
    some (.ofList (s.toList.takeWhile (· ≠ sep)), .ofList ((s.toList.dropWhile (· ≠ sep)).drop 1))
  else none

theorem splitOnce_eq_some {sep : Char} {s a b : String} (h : splitOnce sep s = some (a, b)) :
    s.toList = a.toList ++ sep :: b.toList ∧ sep ∉ a.toList := by
  simp only [splitOnce, Option.ite_none_right_eq_some, Option.some.injEq, Prod.mk.injEq] at h
  obtain ⟨hmem, rfl, rfl⟩ := h
  simp only [String.toList_ofList]
  exact ⟨takeWhile_append_sep hmem, sep_notMem_takeWhile⟩

theorem splitOnce_of_toList {sep : Char} {s a b : String}
    (hs : s.toList = a.toList ++ sep :: b.toList) (ha : sep ∉ a.toList) :
    splitOnce sep s = some (a, b) := by
  obtain ⟨hbefore, hafter⟩ := @takeWhile_sep _ _ sep a.toList b.toList ha
  rw [splitOnce, hs, hbefore, hafter]
  simp

def beforeFirst (sep : Char) (s : String) : String :=
  .ofList (s.toList.takeWhile (· ≠ sep))

def hexEncode (b : Bytes) : String :=
  .ofList (b.flatMap fun x => [Nat.digitChar (x.toNat / 16), Nat.digitChar (x.toNat % 16)])

def hexValue? (b : UInt8) : Option Nat :=
  -- the codes of 0 to 9, a to f and A to F
  if 48 ≤ b ∧ b ≤ 57 then some (b.toNat - 48)
  else if 97 ≤ b ∧ b ≤ 102 then some (b.toNat - 87)
  else if 65 ≤ b ∧ b ≤ 70 then some (b.toNat - 55)
  else none

def hexPairs? : Bytes → Option Bytes
  | [] => some []
  | [_] => none
  | hi :: lo :: rest => do
    let h ← hexValue? hi
    let l ← hexValue? lo
    let tail ← hexPairs? rest
    pure (UInt8.ofNat (h * 16 + l) :: tail)

def hexDecode (s : String) : Option Bytes := hexPairs? (bytes s)

/-- `hex::decode` into an array of exactly `n` bytes. -/
def hexDecodeExact (n : Nat) (s : String) : Option Bytes :=
  (hexDecode s).filter fun b => b.length = n

/-- The big-endian bytes of `n` in `width` bytes (`to_be_bytes`). -/
def beBytes : (width : Nat) → Nat → Bytes
  | 0, _ => []
  | width + 1, n => beBytes width (n / 256) ++ [UInt8.ofNat (n % 256)]

/-- The little-endian bytes of `n` in `width` bytes (`to_le_bytes`). -/
def leBytes (width n : Nat) : Bytes := (beBytes width n).reverse

end Text

end Signer
