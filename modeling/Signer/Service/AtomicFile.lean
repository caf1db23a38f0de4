import Signer.Text.Basic

/-!
# Files that are replaced as a whole

A program keeps a value in one file. It writes the text of a new value next to the file and
renames it into place.
-/

namespace Signer.AtomicFile

variable {α : Type}

/-- A serializer and a parser of values. -/
structure Codec (α : Type) where
  encode : α → Option Bytes
  decode : Bytes → Option α

/-- What is written reads back as it was. -/
def Codec.RoundTrip (codec : Codec α) : Prop :=
  ∀ value text, codec.encode value = some text → codec.decode text = some value

/-- The codec that knows the texts of finitely many values. -/
def Codec.ofTable [DecidableEq α] (table : List (α × Bytes)) : Codec α where
  encode value := table.lookup value
  decode text := (table.find? fun entry => entry.2 = text).map Prod.fst

theorem Codec.ofTable_roundTrip [DecidableEq α] {table : List (α × Bytes)}
    (h : (table.map Prod.snd).Nodup) : (Codec.ofTable table).RoundTrip := by
  intro value text hencode
  obtain ⟨before, after, htable, -⟩ := List.lookup_eq_some_iff.mp hencode
  have hbefore : ∀ entry ∈ before, entry.2 ≠ text := by
    rw [htable, List.map_append, List.map_cons] at h
    intro entry hentry heq
    exact (List.nodup_append.mp h).2.2 _ (List.mem_map_of_mem hentry) text
      List.mem_cons_self heq
  have hfind : table.find? (fun entry => entry.2 = text) = some (value, text) := by
    rw [htable, List.find?_append, List.find?_eq_none.mpr (by simpa using hbefore)]
    simp
  simp [Codec.ofTable, hfind]

/-- Replaces the file by the text of the value, or leaves it and reports a failure. -/
def store (codec : Codec α) (writes : Bool) (value : α) (file : Option Bytes) :
    Bool × Option Bytes :=
  match codec.encode value with
  | some text => if writes then (true, some text) else (false, file)
  | none => (false, file)

/-- A file that cannot be read is not a missing one. -/
inductive Loaded (α : Type) where
  | missing
  | failed
  | value (a : α)

def load (codec : Codec α) (reads : Bool) (file : Option Bytes) : Loaded α :=
  match file with
  | none => if reads then .missing else .failed
  | some text =>
    if reads then
      match codec.decode text with
      | some a => .value a
      | none => .failed
    else .failed

variable {codec : Codec α} {writes reads : Bool} {value : α} {file : Option Bytes}

theorem store_cases (codec : Codec α) (writes : Bool) (value : α) (file : Option Bytes) :
    (∃ text, codec.encode value = some text ∧ store codec writes value file = (true, some text)) ∨
      store codec writes value file = (false, file) := by
  unfold store
  cases hencode : codec.encode value with
  | none => exact .inr rfl
  | some text =>
    cases writes with
    | true => exact .inl ⟨text, rfl, rfl⟩
    | false => exact .inr rfl

theorem store_of_failed (h : (store codec writes value file).1 = false) :
    (store codec writes value file).2 = file := by
  rcases store_cases codec writes value file with ⟨text, -, hstore⟩ | hstore
  · rw [hstore] at h
    cases h
  · rw [hstore]

/-- What was stored is what is loaded. -/
theorem load_store (hcodec : codec.RoundTrip) (h : (store codec writes value file).1 = true) :
    load codec true (store codec writes value file).2 = .value value := by
  rcases store_cases codec writes value file with ⟨text, hencode, hstore⟩ | hstore
  · rw [hstore]
    simp [load, hcodec value text hencode]
  · rw [hstore] at h
    cases h

theorem load_eq_or_failed (codec : Codec α) (reads : Bool) (file : Option Bytes) :
    load codec reads file = load codec true file ∨ load codec reads file = .failed := by
  cases reads with
  | true => exact .inl rfl
  | false => cases file <;> exact .inr rfl

end Signer.AtomicFile
