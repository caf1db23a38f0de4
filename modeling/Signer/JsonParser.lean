import Signer.JsonText

/-!
# Reading JSON text

`parse_json_no_dup_keys`: the reader of `serde_json` (RFC 8259) with a visitor that refuses a member
name it has already seen, at any depth. Blanks stand between tokens, strings use every escape,
containers nest up to the recursion limit, and nothing but blanks follows the value. How a number
token is read is a parameter. The compact text of a value without numbers and repeated names is read
back as that value.
-/

namespace Signer

/-! ### Strings -/

def hexValue (c : Char) : Option ℕ :=
  if c.isDigit then some (c.toNat - 48)
  else if 'a' ≤ c ∧ c ≤ 'f' then some (c.toNat - 87)
  else if 'A' ≤ c ∧ c ≤ 'F' then some (c.toNat - 55)
  else none

/-- The four hexadecimal digits of a `\u` escape. -/
def readHex4 : List Char → Option (ℕ × List Char)
  | a :: b :: c :: d :: rest => do
    let a ← hexValue a
    let b ← hexValue b
    let c ← hexValue c
    let d ← hexValue d
    pure (((a * 16 + b) * 16 + c) * 16 + d, rest)
  | _ => none

/-- What stands behind a `\u`: a scalar value, or a pair of surrogates. A surrogate without
its partner is refused. -/
def readUnicodeEscape (cs : List Char) : Option (Char × List Char) := do
  let (high, rest) ← readHex4 cs
  if 0xDC00 ≤ high ∧ high ≤ 0xDFFF then none
  else if 0xD800 ≤ high ∧ high ≤ 0xDBFF then
    match rest with
    | '\\' :: 'u' :: rest => do
      let (low, rest) ← readHex4 rest
      if low < 0xDC00 ∨ 0xDFFF < low then none
      else some (.ofNat ((high - 0xD800) * 0x400 + (low - 0xDC00) + 0x10000), rest)
    | _ => none
  else some (.ofNat high, rest)

def readEscape : List Char → Option (Char × List Char)
  | '"' :: rest => some ('"', rest)
  | '\\' :: rest => some ('\\', rest)
  | '/' :: rest => some ('/', rest)
  | 'b' :: rest => some (.ofNat 0x08, rest)
  | 'f' :: rest => some (.ofNat 0x0c, rest)
  | 'n' :: rest => some (.ofNat 0x0a, rest)
  | 'r' :: rest => some (.ofNat 0x0d, rest)
  | 't' :: rest => some (.ofNat 0x09, rest)
  | 'u' :: rest => readUnicodeEscape rest
  | _ => none

def readStringChars : ℕ → List Char → Option (List Char × List Char)
  | 0, _ => none
  | _ + 1, [] => none
  | fuel + 1, c :: rest =>
    if c = '"' then some ([], rest)
    else if c = '\\' then do
      let (c, rest) ← readEscape rest
      let (cs, rest) ← readStringChars fuel rest
      pure (c :: cs, rest)
    else if c.toNat < 0x20 then none
    else do
      let (cs, rest) ← readStringChars fuel rest
      pure (c :: cs, rest)

def readString (cs : List Char) : Option (String × List Char) := do
  let (chars, rest) ← readStringChars cs.length cs
  pure (.ofList chars, rest)

/-! ### Values -/

def isJsonSpace (c : Char) : Bool := c = ' ' || c = '\n' || c = '\t' || c = '\r'

def skipSpace (cs : List Char) : List Char := cs.dropWhile isJsonSpace

def expect : List Char → List Char → Option (List Char)
  | [], rest => some rest
  | c :: literal, d :: rest => if c = d then expect literal rest else none
  | _ :: _, [] => none

section

variable (readNumber : List Char → Option (JsonNumber × List Char))

mutual

/-- A value, when `remaining` counts down the containers that may still be entered. -/
def parseValue : ℕ → ℕ → List Char → Option (Json × List Char)
  | 0, _, _ => none
  | fuel + 1, remaining, cs =>
    match skipSpace cs with
    | [] => none
    | c :: rest =>
      if c = 'n' then (expect "ull".toList rest).map (.null, ·)
      else if c = 't' then (expect "rue".toList rest).map (.bool true, ·)
      else if c = 'f' then (expect "alse".toList rest).map (.bool false, ·)
      else if c = '"' then do
        let (s, rest) ← readString rest
        pure (.string s, rest)
      else if c = '[' then
        -- the recursion limit is hit when the count reaches zero
        if remaining ≤ 1 then none
        else do
          let (items, rest) ← parseItems fuel (remaining - 1) true rest
          pure (.array items, rest)
      else if c = '\x7b' then
        if remaining ≤ 1 then none
        else do
          let (members, rest) ← parseMembers fuel (remaining - 1) true [] rest
          pure (.object members, rest)
      else if c = '-' ∨ c.isDigit then do
        let (n, rest) ← readNumber (c :: rest)
        pure (.number n, rest)
      else none

def parseItems : ℕ → ℕ → Bool → List Char → Option (List Json × List Char)
  | 0, _, _, _ => none
  | fuel + 1, remaining, first, cs =>
    match skipSpace cs with
    | [] => none
    | c :: rest =>
      if c = ']' then some ([], rest)
      else do
        let start ← if first then some (c :: rest) else expect [','] (c :: rest)
        let (item, rest) ← parseValue fuel remaining start
        let (items, rest) ← parseItems fuel remaining false rest
        pure (item :: items, rest)

/-- The members of an object up to its brace. A name that was `seen` before is refused. -/
def parseMembers : ℕ → ℕ → Bool → List String → List Char →
    Option (List (String × Json) × List Char)
  | 0, _, _, _, _ => none
  | fuel + 1, remaining, first, seen, cs =>
    match skipSpace cs with
    | [] => none
    | c :: rest =>
      if c = '\x7d' then some ([], rest)
      else do
        let start ← if first then some (c :: rest) else expect [','] (c :: rest)
        let quoted ← expect ['"'] (skipSpace start)
        let (name, rest) ← readString quoted
        let start ← expect [':'] (skipSpace rest)
        let (value, rest) ← parseValue fuel remaining start
        if name ∈ seen then none
        else do
          let (members, rest) ← parseMembers fuel remaining false (name :: seen) rest
          pure ((name, value) :: members, rest)

end

/-- How deep `serde_json` counts down, reaching zero inside the innermost container it
refuses. -/
def recursionLimit : ℕ := 128

/-- `parse_json_no_dup_keys`. A value takes at most two calls a character. -/
def parseJsonNoDupKeys (s : String) : Option Json := do
  let (value, rest) ← parseValue readNumber (2 * s.toList.length + 2) recursionLimit s.toList
  if skipSpace rest = [] then pure value else none

end

/-! ### The text of a string is read back -/

theorem readHex4_control : ∀ n < 32, ∀ rest : List Char,
    readHex4 ('0' :: '0' :: Nat.digitChar (n / 16) :: Nat.digitChar (n % 16) :: rest) =
      some (n, rest) := by
  have hdigits : ∀ n < 32, hexValue (Nat.digitChar (n / 16)) = some (n / 16) ∧
      hexValue (Nat.digitChar (n % 16)) = some (n % 16) := by decide
  intro n hn rest
  obtain ⟨hhigh, hlow⟩ := hdigits n hn
  have hzero : hexValue '0' = some 0 := by decide
  simp only [readHex4, hzero, hhigh, hlow, Option.bind_eq_bind, Option.bind_some, Option.pure_def]
  congr 2
  omega

theorem readStringChars_jcsChar (c : Char) (fuel : ℕ) (rest : List Char) :
    readStringChars (fuel + 1) (jcsChar c ++ rest) =
      (readStringChars fuel rest).map fun p => (c :: p.1, p.2) := by
  have hnat : ∀ n, c.toNat = n → Char.ofNat n = c := by
    rintro _ rfl
    exact Char.ofNat_toNat c
  have hescape : ∀ cs, readEscape cs = some (c, rest) →
      readStringChars (fuel + 1) ('\\' :: cs) =
        (readStringChars fuel rest).map fun p => (c :: p.1, p.2) := by
    intro cs hcs
    cases hread : readStringChars fuel rest <;> simp [readStringChars, hcs, hread]
  unfold jcsChar
  split_ifs with hquote hslash hb ht hn hf hr hcontrol
  · exact hescape _ (by simp [readEscape, hquote])
  · exact hescape _ (by simp [readEscape, hslash])
  · exact hescape _ (by simpa [readEscape] using hnat _ hb)
  · exact hescape _ (by simpa [readEscape] using hnat _ ht)
  · exact hescape _ (by simpa [readEscape] using hnat _ hn)
  · exact hescape _ (by simpa [readEscape] using hnat _ hf)
  · exact hescape _ (by simpa [readEscape] using hnat _ hr)
  · have hlow : ¬(0xDC00 ≤ c.toNat ∧ c.toNat ≤ 0xDFFF) := by omega
    have hhigh : ¬(0xD800 ≤ c.toNat ∧ c.toNat ≤ 0xDBFF) := by omega
    have hread := readHex4_control _ hcontrol rest
    refine hescape _ ?_
    change readUnicodeEscape ('0' :: '0' :: _ :: _ :: rest) = _
    simp only [readUnicodeEscape, hread, Option.bind_eq_bind, Option.bind_some, if_neg hlow,
      if_neg hhigh, hnat _ rfl]
  · cases hread : readStringChars fuel rest <;>
      simp [readStringChars, hquote, hslash, hcontrol, hread]

theorem readStringChars_jcsChars (cs rest : List Char) {fuel : ℕ} (h : cs.length < fuel) :
    readStringChars fuel (cs.flatMap jcsChar ++ '"' :: rest) = some (cs, rest) := by
  induction cs generalizing fuel with
  | nil =>
    obtain ⟨fuel, rfl⟩ := Nat.exists_eq_add_of_lt h
    simp [readStringChars]
  | cons c cs ih =>
    obtain ⟨fuel, rfl⟩ : ∃ n, fuel = n + 1 := ⟨fuel - 1, by simp at h; omega⟩
    rw [List.flatMap_cons, List.append_assoc, readStringChars_jcsChar,
      ih (by simpa using h), Option.map_some]

theorem jcsChar_ne_nil (c : Char) : jcsChar c ≠ [] := by
  unfold jcsChar
  split_ifs <;> simp

theorem length_le_flatMap_jcsChar (cs : List Char) : cs.length ≤ (cs.flatMap jcsChar).length := by
  induction cs with
  | nil => simp
  | cons c cs ih =>
    have hpos := List.length_pos_iff.mpr (jcsChar_ne_nil c)
    simp only [List.flatMap_cons, List.length_append, List.length_cons]
    omega

theorem readString_jcsString (s : String) (rest : List Char) :
    readString (s.toList.flatMap jcsChar ++ '"' :: rest) = some (s, rest) := by
  have hlength : s.toList.length < (s.toList.flatMap jcsChar ++ '"' :: rest).length := by
    have hle := length_le_flatMap_jcsChar s.toList
    rw [List.length_append, List.length_cons]
    omega
  rw [readString, readStringChars_jcsChars _ _ hlength]
  simp

/-! ### Values that can be read back -/

namespace Json

mutual

def numberFree : Json → Bool
  | .number _ => false
  | .array items => numberFreeItems items
  | .object members => numberFreeMembers members
  | _ => true

def numberFreeItems : List Json → Bool
  | [] => true
  | item :: items => item.numberFree && numberFreeItems items

def numberFreeMembers : List (String × Json) → Bool
  | [] => true
  | (_, value) :: members => value.numberFree && numberFreeMembers members

end

mutual

def noDup : Json → Bool
  | .array items => noDupItems items
  | .object members => (members.map (·.1)).Nodup && noDupMembers members
  | _ => true

def noDupItems : List Json → Bool
  | [] => true
  | item :: items => item.noDup && noDupItems items

def noDupMembers : List (String × Json) → Bool
  | [] => true
  | (_, value) :: members => value.noDup && noDupMembers members

end

mutual

def depth : Json → ℕ
  | .array items => depthItems items + 1
  | .object members => depthMembers members + 1
  | _ => 0

def depthItems : List Json → ℕ
  | [] => 0
  | item :: items => max item.depth (depthItems items)

def depthMembers : List (String × Json) → ℕ
  | [] => 0
  | (_, value) :: members => max value.depth (depthMembers members)

end

end Json

/-! ### The text of a value is read back -/

theorem skipSpace_cons {c : Char} {cs : List Char} (h : isJsonSpace c = false) :
    skipSpace (c :: cs) = c :: cs := by
  simp [skipSpace, h]

theorem kindOf_of_isJsonSpace {c : Char} (h : isJsonSpace c = true) : kindOf c = 8 := by
  simp only [isJsonSpace, Bool.or_eq_true, decide_eq_true_eq] at h
  obtain ((rfl | rfl) | rfl) | rfl := h <;> decide

theorem compactText_head {v : Json} {text : List Char} (h : compactText v = some text) :
    ∃ c cs, text = c :: cs ∧ isJsonSpace c = false ∧ c ≠ ']' := by
  obtain ⟨c, cs, rfl, hc⟩ := compactText_eq_cons h
  have hkind : v.kind ≠ 8 := by
    unfold Json.kind
    split <;> decide
  refine ⟨c, cs, rfl, ?_, ?_⟩
  · by_contra hspace
    exact hkind (hc.symm.trans (kindOf_of_isJsonSpace (by simpa using hspace)))
  · rintro rfl
    exact hkind hc.symm

section

variable (readNumber : List Char → Option (JsonNumber × List Char))

theorem parseItems_first {v : Json} {text : List Char} (h : compactText v = some text)
    (fuel remaining : ℕ) (rest : List Char) :
    parseItems readNumber fuel remaining true (text ++ rest) =
      parseItems readNumber fuel remaining false (',' :: (text ++ rest)) := by
  obtain ⟨c, cs, rfl, hspace, hbracket⟩ := compactText_head h
  cases fuel with
  | zero => rfl
  | succ fuel =>
    simp only [parseItems, List.cons_append, skipSpace_cons hspace,
      skipSpace_cons (show isJsonSpace ',' = false by decide), if_neg hbracket, expect]
    simp

theorem parseMembers_first (fuel remaining : ℕ) (rest : List Char) :
    parseMembers readNumber fuel remaining true [] ('"' :: rest) =
      parseMembers readNumber fuel remaining false [] (',' :: '"' :: rest) := by
  cases fuel with
  | zero => rfl
  | succ fuel =>
    simp only [parseMembers, skipSpace_cons (show isJsonSpace '"' = false by decide),
      skipSpace_cons (show isJsonSpace ',' = false by decide), expect]
    simp

-- The fuel is bounded by the text: a value takes one call for itself and one for each item it
-- lists, and every one of them stands behind a character of its own.
mutual

theorem parseValue_compactText : ∀ (v : Json) (rest : List Char) {fuel remaining : ℕ} {text : List Char},
    compactText v = some text → v.numberFree = true → v.noDup = true → v.depth < remaining →
    2 * text.length ≤ fuel →
    parseValue readNumber fuel remaining (text ++ rest) = some (v, rest)
  | .number n, rest, fuel, remaining, text, _, hnumber, _, _, _ => by
    simp [Json.numberFree] at hnumber
  | .null, rest, fuel, remaining, text, hv, _, _, _, hfuel => by
    cases hv
    obtain ⟨fuel, rfl⟩ : ∃ n, fuel = n + 1 := ⟨fuel - 1, by simp at hfuel; omega⟩
    simp [parseValue, skipSpace, isJsonSpace, expect]
  | .bool true, rest, fuel, remaining, text, hv, _, _, _, hfuel => by
    cases hv
    obtain ⟨fuel, rfl⟩ : ∃ n, fuel = n + 1 := ⟨fuel - 1, by simp at hfuel; omega⟩
    simp [parseValue, skipSpace, isJsonSpace, expect]
  | .bool false, rest, fuel, remaining, text, hv, _, _, _, hfuel => by
    cases hv
    obtain ⟨fuel, rfl⟩ : ∃ n, fuel = n + 1 := ⟨fuel - 1, by simp at hfuel; omega⟩
    simp [parseValue, skipSpace, isJsonSpace, expect]
  | .string s, rest, fuel, remaining, text, hv, _, _, _, hfuel => by
    cases hv
    obtain ⟨fuel, rfl⟩ : ∃ n, fuel = n + 1 := ⟨fuel - 1, by simp [jcsString] at hfuel; omega⟩
    simp [parseValue, skipSpace, isJsonSpace, jcsString, readString_jcsString]
  | .array vs, rest, fuel, remaining, text, hv, hnumber, hdup, hdepth, hfuel => by
    simp only [Json.numberFree] at hnumber
    simp only [Json.noDup] at hdup
    simp only [Json.depth] at hdepth
    have hremaining : ¬remaining ≤ 1 := by omega
    rcases compactArray_eq hv with ⟨rfl, rfl⟩ | ⟨x, rfl, hx, -⟩
    · obtain ⟨fuel, rfl⟩ : ∃ n, fuel = n + 2 := ⟨fuel - 2, by simp at hfuel; omega⟩
      simp [parseValue, parseItems, skipSpace, isJsonSpace, hremaining]
    · obtain ⟨fuel, rfl⟩ : ∃ n, fuel = n + 1 := ⟨fuel - 1, by simp at hfuel; omega⟩
      have hitems := parseItems_compactItems vs rest hx hnumber hdup
        (show Json.depthItems vs < remaining - 1 by omega)
        (show 2 * (',' :: x).length ≤ fuel + 1 by simpa using hfuel)
      have hfirst : parseItems readNumber fuel (remaining - 1) true (x ++ rest) =
          some (vs, rest) := by
        cases vs with
        | nil => cases hx
        | cons v vs =>
          obtain ⟨a, b, ha, -, hab⟩ := compactItems_cons_eq hx
          rw [(List.cons.inj hab).2, List.append_assoc, parseItems_first readNumber ha,
            ← List.append_assoc, ← (List.cons.inj hab).2]
          exact hitems
      simp [parseValue, skipSpace, isJsonSpace, hremaining, hfirst]
  | .object ms, rest, fuel, remaining, text, hv, hnumber, hdup, hdepth, hfuel => by
    simp only [Json.numberFree] at hnumber
    simp only [Json.noDup, Bool.and_eq_true, decide_eq_true_eq] at hdup
    simp only [Json.depth] at hdepth
    have hremaining : ¬remaining ≤ 1 := by omega
    rcases compactObject_eq hv with ⟨rfl, rfl⟩ | ⟨x, rfl, hx, -⟩
    · obtain ⟨fuel, rfl⟩ : ∃ n, fuel = n + 2 := ⟨fuel - 2, by simp at hfuel; omega⟩
      simp [parseValue, parseMembers, skipSpace, isJsonSpace, hremaining]
    · obtain ⟨fuel, rfl⟩ : ∃ n, fuel = n + 1 := ⟨fuel - 1, by simp at hfuel; omega⟩
      have hmembers := parseMembers_compactMembers ms [] rest hx hnumber
        hdup.2 hdup.1 (by simp) (show Json.depthMembers ms < remaining - 1 by omega)
        (show 2 * (',' :: x).length ≤ fuel + 1 by simpa using hfuel)
      have hfirst : parseMembers readNumber fuel (remaining - 1) true [] (x ++ rest) =
          some (ms, rest) := by
        cases ms with
        | nil => cases hx
        | cons m ms =>
          obtain ⟨name, v⟩ := m
          obtain ⟨a, b, -, -, hab⟩ := compactMembers_cons_eq hx
          rw [(List.cons.inj hab).2] at hmembers ⊢
          exact (parseMembers_first readNumber _ _ _).trans hmembers
      simp [parseValue, skipSpace, isJsonSpace, hremaining, hfirst]

theorem parseItems_compactItems : ∀ (vs : List Json) (rest : List Char) {fuel remaining : ℕ}
    {text : List Char}, compactItems vs = some text → Json.numberFreeItems vs = true →
    Json.noDupItems vs = true → Json.depthItems vs < remaining → 2 * text.length ≤ fuel + 1 →
    parseItems readNumber fuel remaining false (text ++ rest) = some (vs, rest)
  | [], rest, fuel, remaining, text, hvs, _, _, _, hfuel => by
    cases hvs
    obtain ⟨fuel, rfl⟩ : ∃ n, fuel = n + 1 := ⟨fuel - 1, by simp at hfuel; omega⟩
    simp [parseItems, skipSpace, isJsonSpace]
  | v :: vs, rest, fuel, remaining, text, hvs, hnumber, hdup, hdepth, hfuel => by
    obtain ⟨a, b, ha, hb, rfl⟩ := compactItems_cons_eq hvs
    simp only [List.length_cons, List.length_append] at hfuel
    obtain ⟨fuel, rfl⟩ : ∃ n, fuel = n + 1 := ⟨fuel - 1, by omega⟩
    simp only [Json.numberFreeItems, Bool.and_eq_true] at hnumber
    simp only [Json.noDupItems, Bool.and_eq_true] at hdup
    simp only [Json.depthItems, Nat.max_lt] at hdepth
    have hvalue := parseValue_compactText v (b ++ rest) ha hnumber.1 hdup.1 hdepth.1
      (show 2 * a.length ≤ fuel by omega)
    have hitems := parseItems_compactItems vs rest hb hnumber.2 hdup.2 hdepth.2
      (show 2 * b.length ≤ fuel + 1 by omega)
    simp [parseItems, skipSpace, isJsonSpace, expect, hvalue, hitems]

theorem parseMembers_compactMembers : ∀ (ms : List (String × Json)) (seen : List String)
    (rest : List Char) {fuel remaining : ℕ} {text : List Char}, compactMembers ms = some text →
    Json.numberFreeMembers ms = true → Json.noDupMembers ms = true → (ms.map (·.1)).Nodup →
    (∀ m ∈ ms, m.1 ∉ seen) → Json.depthMembers ms < remaining → 2 * text.length ≤ fuel + 1 →
    parseMembers readNumber fuel remaining false seen (text ++ rest) = some (ms, rest)
  | [], seen, rest, fuel, remaining, text, hms, _, _, _, _, _, hfuel => by
    cases hms
    obtain ⟨fuel, rfl⟩ : ∃ n, fuel = n + 1 := ⟨fuel - 1, by simp at hfuel; omega⟩
    simp [parseMembers, skipSpace, isJsonSpace]
  | (name, v) :: ms, seen, rest, fuel, remaining, text, hms, hnumber, hdup, hnodup, hseen, hdepth,
      hfuel => by
    obtain ⟨a, b, ha, hb, rfl⟩ := compactMembers_cons_eq hms
    simp only [List.length_cons, List.length_append] at hfuel
    obtain ⟨fuel, rfl⟩ : ∃ n, fuel = n + 1 := ⟨fuel - 1, by omega⟩
    simp only [Json.numberFreeMembers, Bool.and_eq_true] at hnumber
    simp only [Json.noDupMembers, Bool.and_eq_true] at hdup
    simp only [Json.depthMembers, Nat.max_lt] at hdepth
    rw [List.map_cons, List.nodup_cons] at hnodup
    have hname : name ∉ seen := hseen _ List.mem_cons_self
    have hlater : ∀ m ∈ ms, m.1 ∉ name :: seen := by
      intro m hm hmem
      rcases List.mem_cons.mp hmem with hsame | hmem
      · exact hnodup.1 (List.mem_map.mpr ⟨m, hm, hsame⟩)
      · exact hseen m (List.mem_cons_of_mem _ hm) hmem
    have hvalue := parseValue_compactText v (b ++ rest) ha hnumber.1 hdup.1 hdepth.1
      (show 2 * a.length ≤ fuel by omega)
    have hmembers := parseMembers_compactMembers ms (name :: seen) rest hb hnumber.2 hdup.2 hnodup.2
      hlater hdepth.2 (show 2 * b.length ≤ fuel + 1 by omega)
    simp [parseMembers, skipSpace, isJsonSpace, expect, jcsString, readString_jcsString, hvalue,
      hmembers, hname]

end

theorem parseJsonNoDupKeys_compactText {v : Json} {text : List Char}
    (hv : compactText v = some text) (hnumber : v.numberFree = true) (hdup : v.noDup = true)
    (hdepth : v.depth < recursionLimit) :
    parseJsonNoDupKeys readNumber (.ofList text) = some v := by
  have hread := parseValue_compactText readNumber v [] hv hnumber hdup hdepth
    (show 2 * text.length ≤ 2 * text.length + 2 by omega)
  rw [List.append_nil] at hread
  rw [parseJsonNoDupKeys, String.toList_ofList, hread]
  rfl

end

end Signer
