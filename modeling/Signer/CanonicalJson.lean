import Mathlib.Data.List.Lex
import Mathlib.Data.List.Sort
import Signer.Env

/-!
# Canonical JSON

`canonical_v1`: the form of RFC 8785 restricted to values without numbers. Object
members are sorted by the UTF-16 code units of their names, and strings are escaped
minimally. Receipts, heartbeats and attested data are signed over this form.
-/

namespace Signer

/-- The UTF-16 code units of a string (`str::encode_utf16`). -/
def utf16Units (s : String) : List Nat :=
  s.toList.flatMap fun c =>
    if c.toNat < 0x10000 then [c.toNat]
    else [0xD800 + (c.toNat - 0x10000) / 0x400, 0xDC00 + (c.toNat - 0x10000) % 0x400]

def jcsChar (c : Char) : List Char :=
  if c = '"' then ['\\', '"']
  else if c = '\\' then ['\\', '\\']
  else if c.toNat = 0x08 then ['\\', 'b']
  else if c.toNat = 0x09 then ['\\', 't']
  else if c.toNat = 0x0a then ['\\', 'n']
  else if c.toNat = 0x0c then ['\\', 'f']
  else if c.toNat = 0x0d then ['\\', 'r']
  else if c.toNat < 0x20 then
    ['\\', 'u', '0', '0', Nat.digitChar (c.toNat / 16), Nat.digitChar (c.toNat % 16)]
  else [c]

/-- `jcs_string`: a quoted string. -/
def jcsString (s : String) : List Char := '"' :: s.toList.flatMap jcsChar ++ ['"']

def commaSeparated (items : List (List Char)) : List Char := [','].intercalate items

def sortMembers (members : List (String × List Char)) : List (String × List Char) :=
  members.insertionSort fun a b => utf16Units a.1 ≤ utf16Units b.1

mutual

/-- `canonical_v1_into`: the canonical text, nothing if a number occurs anywhere. -/
def canonicalText : Json → Option (List Char)
  | .null => some "null".toList
  | .bool true => some "true".toList
  | .bool false => some "false".toList
  | .number _ => none
  | .string s => some (jcsString s)
  | .array items => do
    let texts ← canonicalItems items
    pure ('[' :: commaSeparated texts ++ [']'])
  | .object members => do
    let texts ← canonicalMembers members
    pure ('{' :: commaSeparated ((sortMembers texts).map fun m =>
      jcsString m.1 ++ ':' :: m.2) ++ ['}'])

def canonicalItems : List Json → Option (List (List Char))
  | [] => some []
  | item :: items => do
    let text ← canonicalText item
    let texts ← canonicalItems items
    pure (text :: texts)

def canonicalMembers : List (String × Json) → Option (List (String × List Char))
  | [] => some []
  | (name, value) :: members => do
    let text ← canonicalText value
    let texts ← canonicalMembers members
    pure ((name, text) :: texts)

end

def canonicalV1 (value : Json) : Option Bytes :=
  (canonicalText value).map fun text => Text.bytes (.ofList text)

theorem canonicalV1_strings_isSome (members : List (String × String)) :
    (canonicalV1 (.object (members.map fun m => (m.1, .string m.2)))).isSome := by
  have hmembers : ∀ ms : List (String × String),
      canonicalMembers (ms.map fun m => (m.1, Json.string m.2)) =
        some (ms.map fun m => (m.1, jcsString m.2)) := by
    intro ms
    induction ms with
    | nil => rfl
    | cons m ms ih => simp [canonicalMembers, canonicalText, ih]
  simp [canonicalV1, canonicalText, hmembers]

end Signer
