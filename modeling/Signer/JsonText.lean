import Signer.CanonicalJson
import Signer.CanonicalText

/-!
# Compact JSON text

Members in their own order, no blanks, strings escaped as in the canonical form, integers in
decimal.
-/

namespace Signer

variable {s : String} {r r' text : List Char} {vs : List Json} {ms : List (String × Json)}
  {v : Json}

mutual

/-- The text `serde_json` writes. The text of a double is left open. -/
def compactText : Json → Option (List Char)
  | .null => some "null".toList
  | .bool true => some "true".toList
  | .bool false => some "false".toList
  | .number (.posInt n) => some n.toNat.repr.toList
  | .number (.negInt n) => if n < 0 then some ('-' :: n.natAbs.repr.toList) else none
  | .number (.float _) => none
  | .string s => some (jcsString s)
  | .array [] => some "[]".toList
  | .array (item :: items) => do
    let text ← compactText item
    let texts ← compactItems items
    pure ('[' :: (text ++ texts))
  | .object [] => some "\x7b\x7d".toList
  | .object ((name, value) :: members) => do
    let text ← compactText value
    let texts ← compactMembers members
    pure ('\x7b' :: (jcsString name ++ ':' :: (text ++ texts)))

def compactItems : List Json → Option (List Char)
  | [] => some [']']
  | item :: items => do
    let text ← compactText item
    let texts ← compactItems items
    pure (',' :: (text ++ texts))

def compactMembers : List (String × Json) → Option (List Char)
  | [] => some ['\x7d']
  | (name, value) :: members => do
    let text ← compactText value
    let texts ← compactMembers members
    pure (',' :: (jcsString name ++ ':' :: (text ++ texts)))

end

/-- A string that is written without an escape. -/
def JsonPlain (s : String) : Prop := ∀ c ∈ s.toList, jcsChar c = [c]

instance (s : String) : Decidable (JsonPlain s) :=
  decidable_of_iff (s.toList.all fun c => jcsChar c = [c]) (by simp [JsonPlain])

theorem jcsString_of_jsonPlain (h : JsonPlain s) :
    jcsString s = '"' :: s.toList ++ ['"'] := by
  rw [jcsString, List.flatMap_congr h]
  simp

/-! ### Strings -/

def hexDigitValue (c : Char) : ℕ := if c.isDigit then c.toNat - 48 else c.toNat - 87

/-- Reads back one character of a JSON string. -/
def readChar : List Char → Option (Char × List Char)
  | '\\' :: 'u' :: '0' :: '0' :: a :: b :: rest =>
    some (Char.ofNat (hexDigitValue a * 16 + hexDigitValue b), rest)
  | '\\' :: 'b' :: rest => some (Char.ofNat 0x08, rest)
  | '\\' :: 't' :: rest => some (Char.ofNat 0x09, rest)
  | '\\' :: 'n' :: rest => some (Char.ofNat 0x0a, rest)
  | '\\' :: 'f' :: rest => some (Char.ofNat 0x0c, rest)
  | '\\' :: 'r' :: rest => some (Char.ofNat 0x0d, rest)
  | '\\' :: c :: rest => some (c, rest)
  | '"' :: _ => none
  | c :: rest => some (c, rest)
  | [] => none

theorem hexDigitValue_digitChar : ∀ n < 32,
    hexDigitValue (Nat.digitChar (n / 16)) * 16 + hexDigitValue (Nat.digitChar (n % 16)) = n := by
  decide

theorem readChar_jcsChar (c : Char) (rest : List Char) :
    readChar (jcsChar c ++ rest) = some (c, rest) := by
  have hnat : ∀ n, c.toNat = n → Char.ofNat n = c := by
    rintro _ rfl
    exact Char.ofNat_toNat c
  unfold jcsChar
  split_ifs with hquote hslash hb ht hn hf hr hcontrol
  · simp [readChar, hquote]
  · simp [readChar, hslash]
  · simpa [readChar] using hnat _ hb
  · simpa [readChar] using hnat _ ht
  · simpa [readChar] using hnat _ hn
  · simpa [readChar] using hnat _ hf
  · simpa [readChar] using hnat _ hr
  · simp [readChar, hexDigitValue_digitChar _ hcontrol]
  · simp only [List.cons_append, List.nil_append]
    unfold readChar
    split <;> simp_all

theorem jcsChars_append_inj {cs cs' : List Char}
    (h : cs.flatMap jcsChar ++ '"' :: r = cs'.flatMap jcsChar ++ '"' :: r') :
    cs = cs' ∧ r = r' := by
  induction cs generalizing cs' with
  | nil =>
    cases cs' with
    | nil => simpa using h
    | cons c' cs' =>
      have hread := congrArg readChar h
      rw [List.flatMap_cons, List.append_assoc, readChar_jcsChar] at hread
      simp [readChar] at hread
  | cons c cs ih =>
    have hread := congrArg readChar h
    rw [List.flatMap_cons, List.append_assoc, readChar_jcsChar] at hread
    cases cs' with
    | nil => simp [readChar] at hread
    | cons c' cs' =>
      rw [List.flatMap_cons, List.append_assoc, readChar_jcsChar, Option.some.injEq,
        Prod.mk.injEq] at hread
      obtain ⟨rfl, hrest⟩ := ih hread.2
      exact ⟨by rw [hread.1], hrest⟩

theorem jcsString_append_inj {s' : String} (h : jcsString s ++ r = jcsString s' ++ r') :
    s = s' ∧ r = r' := by
  simp only [jcsString, List.append_assoc, List.cons_append, List.nil_append, List.cons.injEq,
    true_and] at h
  obtain ⟨hchars, hrest⟩ := jcsChars_append_inj h
  exact ⟨String.toList_inj.mp hchars, hrest⟩

/-! ### Values -/

/-- Values of different kinds have texts that begin differently. -/
def Json.kind : Json → ℕ
  | .null => 0
  | .bool true => 1
  | .bool false => 2
  | .number (.negInt _) => 3
  | .number _ => 4
  | .string _ => 5
  | .array _ => 6
  | .object _ => 7

section

variable {w : Json}

theorem Json.eq_null_of_kind (h : w.kind = Json.null.kind) : w = .null := by
  unfold Json.kind at h
  split at h <;> simp_all

theorem Json.eq_bool_of_kind {b : Bool} (h : w.kind = (Json.bool b).kind) : w = .bool b := by
  cases b <;> unfold Json.kind at h <;> split at h <;> simp_all

theorem Json.eq_number_of_kind {n : JsonNumber} (h : w.kind = (Json.number n).kind) :
    ∃ m, w = .number m := by
  cases n <;> unfold Json.kind at h <;> split at h <;> simp_all

theorem Json.eq_string_of_kind (h : w.kind = (Json.string s).kind) :
    ∃ s', w = .string s' := by
  unfold Json.kind at h
  split at h <;> simp_all

theorem Json.eq_array_of_kind (h : w.kind = (Json.array vs).kind) :
    ∃ ws, w = .array ws := by
  unfold Json.kind at h
  split at h <;> simp_all

theorem Json.eq_object_of_kind (h : w.kind = (Json.object ms).kind) :
    ∃ ns, w = .object ns := by
  unfold Json.kind at h
  split at h <;> simp_all

end

/-- The kind of a value, from the first character of its text. -/
def kindOf (c : Char) : ℕ :=
  if c.isDigit then 4
  else if c = 'n' then 0 else if c = 't' then 1 else if c = 'f' then 2 else if c = '-' then 3
  else if c = '"' then 5 else if c = '[' then 6 else if c = '\x7b' then 7 else 8

theorem repr_eq_cons (n : ℕ) : ∃ c cs, n.repr.toList = c :: cs ∧ c.isDigit = true := by
  cases h : n.repr.toList with
  | nil => exact absurd (String.toList_eq_nil_iff.mp h) Nat.repr_ne_empty
  | cons c cs => exact ⟨c, cs, rfl, isDigit_of_mem_repr (n := n) (by rw [h]; simp)⟩

theorem compactText_eq_cons (h : compactText v = some text) :
    ∃ c cs, text = c :: cs ∧ kindOf c = v.kind := by
  unfold compactText at h
  split at h
  · cases h
    exact ⟨'n', _, rfl, by decide⟩
  · cases h
    exact ⟨'t', _, rfl, by decide⟩
  · cases h
    exact ⟨'f', _, rfl, by decide⟩
  · cases h
    rename_i n
    obtain ⟨c, cs, hrepr, hdigit⟩ := repr_eq_cons n.toNat
    exact ⟨c, cs, hrepr, by simp [kindOf, hdigit, Json.kind]⟩
  · split at h
    · cases h
      exact ⟨'-', _, rfl, by simp [kindOf, Json.kind]⟩
    · cases h
  · cases h
  · cases h
    exact ⟨'"', _, rfl, by simp [kindOf, Json.kind]⟩
  · cases h
    exact ⟨'[', _, rfl, by decide⟩
  · simp only [do_eq_some, pure_eq_some] at h
    obtain ⟨a, -, b, -, rfl⟩ := h
    exact ⟨'[', _, rfl, by simp [kindOf, Json.kind]⟩
  · cases h
    exact ⟨'\x7b', _, rfl, by decide⟩
  · simp only [do_eq_some, pure_eq_some] at h
    obtain ⟨a, -, b, -, rfl⟩ := h
    exact ⟨'\x7b', _, rfl, by simp [kindOf, Json.kind]⟩

theorem kind_eq_of_append_eq {w : Json} {a b : List Char} (hv : compactText v = some a)
    (hw : compactText w = some b) (h : a ++ r = b ++ r') : v.kind = w.kind := by
  obtain ⟨c, cs, rfl, hc⟩ := compactText_eq_cons hv
  obtain ⟨d, ds, rfl, hd⟩ := compactText_eq_cons hw
  rw [← hc, ← hd, (List.cons.inj h).1]

/-- What may follow the text of a number. -/
def NoDigit (r : List Char) : Prop := r.takeWhile Char.isDigit = []

theorem repr_append_inj {m n : ℕ} (hr : NoDigit r) (hr' : NoDigit r')
    (h : m.repr.toList ++ r = n.repr.toList ++ r') : m = n ∧ r = r' := by
  obtain ⟨hrepr, hrest⟩ := append_inj_of_takeWhile (fun c => isDigit_of_mem_repr)
    (fun c => isDigit_of_mem_repr) hr hr' h
  exact ⟨repr_injective (String.toList_inj.mp hrepr), hrest⟩

theorem noDigit_cons {c : Char} (h : c.isDigit = false) : NoDigit (c :: r) := by
  simp [NoDigit, h]

theorem noDigit_compactItems (h : compactItems vs = some text) : NoDigit (text ++ r) := by
  cases vs with
  | nil =>
    cases h
    exact noDigit_cons rfl
  | cons v vs =>
    simp only [compactItems, do_eq_some, pure_eq_some] at h
    obtain ⟨a, -, b, -, rfl⟩ := h
    exact noDigit_cons rfl

theorem noDigit_compactMembers (h : compactMembers ms = some text) : NoDigit (text ++ r) := by
  cases ms with
  | nil =>
    cases h
    exact noDigit_cons rfl
  | cons m ms =>
    simp only [compactMembers, do_eq_some, pure_eq_some] at h
    obtain ⟨a, -, b, -, rfl⟩ := h
    exact noDigit_cons rfl

theorem compactText_ne_bracket (h : compactText v = some text) :
    text ++ r ≠ ']' :: r' := by
  obtain ⟨c, cs, rfl, hc⟩ := compactText_eq_cons h
  intro heq
  rw [(List.cons.inj heq).1] at hc
  have hkind : v.kind ≤ 7 := by
    unfold Json.kind
    split <;> decide
  have hbracket : kindOf ']' = 8 := by decide
  omega

theorem compactItems_cons_eq (h : compactItems (v :: vs) = some text) :
    ∃ a b, compactText v = some a ∧ compactItems vs = some b ∧ text = ',' :: (a ++ b) := by
  simp only [compactItems, do_eq_some, pure_eq_some] at h
  obtain ⟨a, ha, b, hb, rfl⟩ := h
  exact ⟨a, b, ha, hb, rfl⟩

theorem compactMembers_cons_eq {name : String} (h : compactMembers ((name, v) :: ms) = some text) :
    ∃ a b, compactText v = some a ∧ compactMembers ms = some b ∧
      text = ',' :: (jcsString name ++ ':' :: (a ++ b)) := by
  simp only [compactMembers, do_eq_some, pure_eq_some] at h
  obtain ⟨a, ha, b, hb, rfl⟩ := h
  exact ⟨a, b, ha, hb, rfl⟩

theorem compactArray_eq (h : compactText (.array vs) = some text) :
    vs = [] ∧ text = ['[', ']'] ∨
      ∃ x, text = '[' :: x ∧ compactItems vs = some (',' :: x) ∧ ∀ r r', x ++ r ≠ ']' :: r' := by
  cases vs with
  | nil => exact .inl ⟨rfl, (Option.some.inj h).symm⟩
  | cons v vs =>
    simp only [compactText, do_eq_some, pure_eq_some] at h
    obtain ⟨a, ha, b, hb, rfl⟩ := h
    refine .inr ⟨a ++ b, rfl, by simp [compactItems, ha, hb], fun r r' => ?_⟩
    rw [List.append_assoc]
    exact compactText_ne_bracket ha

theorem compactObject_eq (h : compactText (.object ms) = some text) :
    ms = [] ∧ text = ['\x7b', '\x7d'] ∨
      ∃ x, text = '\x7b' :: x ∧ compactMembers ms = some (',' :: x) ∧
        ∀ r r', x ++ r ≠ '\x7d' :: r' := by
  cases ms with
  | nil => exact .inl ⟨rfl, (Option.some.inj h).symm⟩
  | cons m ms =>
    simp only [compactText, do_eq_some, pure_eq_some] at h
    obtain ⟨a, ha, b, hb, rfl⟩ := h
    exact .inr ⟨_, rfl, by simp [compactMembers, ha, hb], fun r r' => by simp [jcsString]⟩

theorem compactNumber_append_inj {m n : JsonNumber} {a b : List Char}
    (hm : compactText (.number m) = some a) (hn : compactText (.number n) = some b) (hr : NoDigit r)
    (hr' : NoDigit r') (h : a ++ r = b ++ r') : m = n ∧ r = r' := by
  have hkind := kind_eq_of_append_eq hm hn h
  cases m with
  | posInt m =>
    cases n with
    | posInt n =>
      cases hm
      cases hn
      obtain ⟨hvalue, hrest⟩ := repr_append_inj hr hr' h
      exact ⟨congrArg _ (UInt64.toNat_inj.mp hvalue), hrest⟩
    | negInt n => cases hkind
    | float bits => simp [compactText] at hn
  | negInt m =>
    cases n with
    | posInt n => cases hkind
    | negInt n =>
      simp only [compactText, Option.ite_none_right_eq_some, Option.some.injEq] at hm hn
      obtain ⟨hm, rfl⟩ := hm
      obtain ⟨hn, rfl⟩ := hn
      obtain ⟨hvalue, hrest⟩ := repr_append_inj hr hr' (List.cons.inj h).2
      exact ⟨congrArg _ (by omega), hrest⟩
    | float bits => simp [compactText] at hn
  | float bits => simp [compactText] at hm

mutual

/-- A text can be read back from the front of any longer one, if no digit follows. -/
theorem compactText_append_inj : ∀ (v w : Json) {a b r r' : List Char}, compactText v = some a →
    compactText w = some b → NoDigit r → NoDigit r' → a ++ r = b ++ r' → v = w ∧ r = r'
  | .null, w, a, b, r, r', hv, hw, _, _, h => by
    have hkind := kind_eq_of_append_eq hv hw h
    obtain rfl := Json.eq_null_of_kind hkind.symm
    obtain rfl := Option.mem_unique hv hw
    exact ⟨rfl, List.append_cancel_left h⟩
  | .bool x, w, a, b, r, r', hv, hw, _, _, h => by
    have hkind := kind_eq_of_append_eq hv hw h
    obtain rfl := Json.eq_bool_of_kind hkind.symm
    obtain rfl := Option.mem_unique hv hw
    exact ⟨rfl, List.append_cancel_left h⟩
  | .number m, w, a, b, r, r', hv, hw, hr, hr', h => by
    have hkind := kind_eq_of_append_eq hv hw h
    obtain ⟨n, rfl⟩ := Json.eq_number_of_kind hkind.symm
    obtain ⟨rfl, hrest⟩ := compactNumber_append_inj hv hw hr hr' h
    exact ⟨rfl, hrest⟩
  | .string s, w, a, b, r, r', hv, hw, _, _, h => by
    have hkind := kind_eq_of_append_eq hv hw h
    obtain ⟨s', rfl⟩ := Json.eq_string_of_kind hkind.symm
    cases hv
    cases hw
    obtain ⟨rfl, hrest⟩ := jcsString_append_inj h
    exact ⟨rfl, hrest⟩
  | .array vs, w, a, b, r, r', hv, hw, _, _, h => by
    have hkind := kind_eq_of_append_eq hv hw h
    obtain ⟨ws, rfl⟩ := Json.eq_array_of_kind hkind.symm
    rcases compactArray_eq hv with ⟨rfl, rfl⟩ | ⟨x, rfl, hx, hxne⟩
    · rcases compactArray_eq hw with ⟨rfl, rfl⟩ | ⟨y, rfl, hy, hyne⟩
      · exact ⟨rfl, List.append_cancel_left h⟩
      · exact absurd (List.cons.inj h).2.symm (hyne _ _)
    · rcases compactArray_eq hw with ⟨rfl, rfl⟩ | ⟨y, rfl, hy, hyne⟩
      · exact absurd (List.cons.inj h).2 (hxne _ _)
      · obtain ⟨rfl, hrest⟩ := compactItems_append_inj vs ws hx hy
          (congrArg (',' :: ·) (List.cons.inj h).2)
        exact ⟨rfl, hrest⟩
  | .object ms, w, a, b, r, r', hv, hw, _, _, h => by
    have hkind := kind_eq_of_append_eq hv hw h
    obtain ⟨ns, rfl⟩ := Json.eq_object_of_kind hkind.symm
    rcases compactObject_eq hv with ⟨rfl, rfl⟩ | ⟨x, rfl, hx, hxne⟩
    · rcases compactObject_eq hw with ⟨rfl, rfl⟩ | ⟨y, rfl, hy, hyne⟩
      · exact ⟨rfl, List.append_cancel_left h⟩
      · exact absurd (List.cons.inj h).2.symm (hyne _ _)
    · rcases compactObject_eq hw with ⟨rfl, rfl⟩ | ⟨y, rfl, hy, hyne⟩
      · exact absurd (List.cons.inj h).2 (hxne _ _)
      · obtain ⟨rfl, hrest⟩ := compactMembers_append_inj ms ns hx hy
          (congrArg (',' :: ·) (List.cons.inj h).2)
        exact ⟨rfl, hrest⟩

theorem compactItems_append_inj : ∀ (vs ws : List Json) {a b r r' : List Char},
    compactItems vs = some a → compactItems ws = some b → a ++ r = b ++ r' → vs = ws ∧ r = r'
  | [], [], a, b, r, r', hv, hw, h => by
    cases hv
    cases hw
    exact ⟨rfl, (List.cons.inj h).2⟩
  | [], w :: ws, a, b, r, r', hv, hw, h => by
    cases hv
    obtain ⟨x, y, -, -, rfl⟩ := compactItems_cons_eq hw
    simp at h
  | v :: vs, [], a, b, r, r', hv, hw, h => by
    obtain ⟨x, y, -, -, rfl⟩ := compactItems_cons_eq hv
    cases hw
    simp at h
  | v :: vs, w :: ws, a, b, r, r', hv, hw, h => by
    obtain ⟨x, y, hx, hy, rfl⟩ := compactItems_cons_eq hv
    obtain ⟨x', y', hx', hy', rfl⟩ := compactItems_cons_eq hw
    simp only [List.cons_append, List.append_assoc, List.cons.injEq, true_and] at h
    obtain ⟨rfl, htail⟩ := compactText_append_inj v w hx hx' (noDigit_compactItems hy)
      (noDigit_compactItems hy') h
    obtain ⟨rfl, hrest⟩ := compactItems_append_inj vs ws hy hy' htail
    exact ⟨rfl, hrest⟩

theorem compactMembers_append_inj : ∀ (ms ns : List (String × Json)) {a b r r' : List Char},
    compactMembers ms = some a → compactMembers ns = some b → a ++ r = b ++ r' → ms = ns ∧ r = r'
  | [], [], a, b, r, r', hv, hw, h => by
    cases hv
    cases hw
    exact ⟨rfl, (List.cons.inj h).2⟩
  | [], (name, w) :: ns, a, b, r, r', hv, hw, h => by
    cases hv
    obtain ⟨x, y, -, -, rfl⟩ := compactMembers_cons_eq hw
    simp at h
  | (name, v) :: ms, [], a, b, r, r', hv, hw, h => by
    obtain ⟨x, y, -, -, rfl⟩ := compactMembers_cons_eq hv
    cases hw
    simp at h
  | (name, v) :: ms, (name', w) :: ns, a, b, r, r', hv, hw, h => by
    obtain ⟨x, y, hx, hy, rfl⟩ := compactMembers_cons_eq hv
    obtain ⟨x', y', hx', hy', rfl⟩ := compactMembers_cons_eq hw
    simp only [List.cons_append, List.append_assoc, List.cons.injEq, true_and] at h
    obtain ⟨rfl, hvalue⟩ := jcsString_append_inj h
    obtain ⟨rfl, htail⟩ := compactText_append_inj v w hx hx' (noDigit_compactMembers hy)
      (noDigit_compactMembers hy') (List.cons.inj hvalue).2
    obtain ⟨rfl, hrest⟩ := compactMembers_append_inj ms ns hy hy' htail
    exact ⟨rfl, hrest⟩

end

/-! ### Values that have a text -/

/-- A value without doubles. -/
def Json.HasText (v : Json) : Prop := (compactText v).isSome = true

theorem compactItems_isSome (h : ∀ v ∈ vs, v.HasText) :
    (compactItems vs).isSome = true := by
  induction vs with
  | nil => rfl
  | cons v vs ih =>
    obtain ⟨a, ha⟩ := Option.isSome_iff_exists.mp (h v (by simp))
    obtain ⟨b, hb⟩ := Option.isSome_iff_exists.mp (ih fun w hw => h w (by simp [hw]))
    simp [compactItems, ha, hb]

theorem compactMembers_isSome (h : ∀ m ∈ ms, m.2.HasText) : (compactMembers ms).isSome = true := by
  induction ms with
  | nil => rfl
  | cons m ms ih =>
    obtain ⟨a, ha⟩ := Option.isSome_iff_exists.mp (h m (by simp))
    obtain ⟨b, hb⟩ := Option.isSome_iff_exists.mp (ih fun n hn => h n (by simp [hn]))
    simp [compactMembers, ha, hb]

theorem Json.hasText_string (s : String) : (Json.string s).HasText := rfl

theorem Json.hasText_array (h : ∀ v ∈ vs, v.HasText) :
    (Json.array vs).HasText := by
  unfold Json.HasText
  cases vs with
  | nil => rfl
  | cons v vs =>
    obtain ⟨b, hb⟩ := Option.isSome_iff_exists.mp (compactItems_isSome h)
    obtain ⟨x, y, hx, hy, -⟩ := compactItems_cons_eq hb
    simp [compactText, hx, hy]

theorem Json.hasText_object (h : ∀ m ∈ ms, m.2.HasText) :
    (Json.object ms).HasText := by
  unfold Json.HasText
  cases ms with
  | nil => rfl
  | cons m ms =>
    obtain ⟨b, hb⟩ := Option.isSome_iff_exists.mp (compactMembers_isSome h)
    obtain ⟨x, y, hx, hy, -⟩ := compactMembers_cons_eq hb
    simp [compactText, hx, hy]

def compactBytes (v : Json) : Option Bytes :=
  (compactText v).map fun text => Text.bytes (.ofList text)

/-- A value is determined by its text. -/
theorem compactBytes_inj {w : Json} {b : Bytes} (hv : compactBytes v = some b)
    (hw : compactBytes w = some b) : v = w := by
  obtain ⟨a, ha, rfl⟩ := Option.map_eq_some_iff.mp hv
  obtain ⟨a', ha', hbytes⟩ := Option.map_eq_some_iff.mp hw
  have htext : a' = a := by simpa using congrArg String.toList (Text.bytes_injective hbytes)
  have hend : NoDigit [] := rfl
  exact (compactText_append_inj v w ha ha' hend hend (by rw [htext])).1

end Signer
