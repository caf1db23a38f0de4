import Mathlib.Data.List.ReduceOption
import Signer.Proto.Messages
import Signer.Text.CLines
import Signer.Text.Utf8

/-!
# Handing secrets to the KMS helper

The enclave runs a helper program for each call to the key management service and writes the
credentials, and a data key if there is one, to its standard input: a line `KEY=VALUE` for each. The
helper reads the lines into a fixed buffer as C strings. The writer refuses a value that has a line
break or is empty, but not one with a NUL byte, at which the reader takes the value to end.
-/

namespace Signer

open Text

/-! ### The writer -/

def carriageReturn : UInt8 := 13

/-- The byte `=`. -/
def equalsSign : UInt8 := 61

inductive SecretKey where
  | accessKeyId
  | secretAccessKey
  | sessionToken
  | plaintextB64
  deriving DecidableEq

def SecretKey.name : SecretKey → String
  | accessKeyId => "AWS_ACCESS_KEY_ID"
  | secretAccessKey => "AWS_SECRET_ACCESS_KEY"
  | sessionToken => "AWS_SESSION_TOKEN"
  | plaintextB64 => "PLAINTEXT_B64"

/-- The values that `build_stdin_secrets` writes, in order. -/
def stdinValues (creds : AwsCredentials) (dekB64 : Option String) : List (SecretKey × String) :=
  [(.accessKeyId, creds.accessKeyId), (.secretAccessKey, creds.secretAccessKey),
    (.sessionToken, creds.sessionToken)] ++ (dekB64.map fun dek => (SecretKey.plaintextB64, dek)).toList

def buildStdinSecrets (creds : AwsCredentials) (dekB64 : Option String) : Option String :=
  let values := stdinValues creds dekB64
  if values.any fun kv => '\n' ∈ kv.2.toList ∨ '\r' ∈ kv.2.toList ∨ kv.2 = "" then none
  else some (values.foldl (fun out kv => out ++ kv.1.name ++ "=" ++ kv.2 ++ "\n") "")

/-! ### The reader -/

def stdinMaxValue : ℕ := 8192

def stdinMaxLines : ℕ := 8

/-- What `fgets` may store in the buffer of `KMSTOOL_STDIN_MAX_VALUE + 2` bytes. -/
def stdinRoom : ℕ := stdinMaxValue + 1

inductive StdinError where
  | lineTooLong
  | tooManyLines
  | noEquals
  | unknownKey
  | duplicateKey
  | emptyValue
  | oom
  | read
  deriving DecidableEq

structure StdinSecrets where
  accessKeyId : Option Bytes := none
  secretAccessKey : Option Bytes := none
  sessionToken : Option Bytes := none
  plaintextB64 : Option Bytes := none
  deriving DecidableEq

namespace StdinSecrets

def get (out : StdinSecrets) : SecretKey → Option Bytes
  | .accessKeyId => out.accessKeyId
  | .secretAccessKey => out.secretAccessKey
  | .sessionToken => out.sessionToken
  | .plaintextB64 => out.plaintextB64

def set (out : StdinSecrets) (value : Bytes) : SecretKey → StdinSecrets
  | .accessKeyId => { out with accessKeyId := some value }
  | .secretAccessKey => { out with secretAccessKey := some value }
  | .sessionToken => { out with sessionToken := some value }
  | .plaintextB64 => { out with plaintextB64 := some value }

theorem get_set (out : StdinSecrets) (value : Bytes) (key other : SecretKey) :
    (out.set value key).get other = if other = key then some value else out.get other := by
  cases key <;> cases other <;> rfl

end StdinSecrets

def slotOf (key : Bytes) : Option SecretKey :=
  if key = bytes SecretKey.accessKeyId.name then some .accessKeyId
  else if key = bytes SecretKey.secretAccessKey.name then some .secretAccessKey
  else if key = bytes SecretKey.sessionToken.name then some .sessionToken
  else if key = bytes SecretKey.plaintextB64.name then some .plaintextB64
  else none

def stdinAssign (out : StdinSecrets) (key value : Bytes) : Except StdinError StdinSecrets :=
  match slotOf key with
  | none => .error .unknownKey
  | some slot => if (out.get slot).isSome then .error .duplicateKey else .ok (out.set value slot)

def lineText (line : Bytes) : Bytes :=
  let text := cString line
  let text := if text.getLast? = some newline then text.dropLast else text
  if text.getLast? = some carriageReturn then text.dropLast else text

/-- The body of the loop of `kmstool_stdin_read_secrets`, up to the copy of the value: nothing for
a blank line, and otherwise key and value. -/
def readLine (line : Bytes) : Except StdinError (Option (Bytes × Bytes)) :=
  let text := lineText line
  if (cString line).getLast? ≠ some newline ∧ (cString line).length = stdinRoom then
    .error .lineTooLong
  else if text = [] then .ok none
  else if equalsSign ∉ text then .error .noEquals
  else
    let value := (text.dropWhile (· ≠ equalsSign)).drop 1
    if value = [] then .error .emptyValue
    else if stdinMaxValue < value.length then .error .lineTooLong
    else .ok (some (text.takeWhile (· ≠ equalsSign), value))

/-- The loop of `kmstool_stdin_read_secrets`, with the number of lines so far. `malloc` says
whether there is memory for the value of a line. -/
def readLines (malloc : ℕ → Bool) : List Bytes → ℕ → StdinSecrets → Except StdinError StdinSecrets
  | [], _, out => .ok out
  | line :: rest, lines, out =>
    if stdinMaxLines < lines + 1 then .error .tooManyLines
    else
      match readLine line with
      | .error e => .error e
      | .ok none => readLines malloc rest (lines + 1) out
      | .ok (some (key, value)) =>
        if malloc lines then
          match stdinAssign out key value with
          | .error e => .error e
          | .ok next => readLines malloc rest (lines + 1) next
        else .error .oom

/-- `kmstool_stdin_read_secrets`. `ferror` says whether the stream ended in a read error. -/
def readSecrets (malloc : ℕ → Bool) (ferror : Bool) (stream : Bytes) :
    Except StdinError StdinSecrets :=
  match readLines malloc (fills stdinRoom stream) 0 {} with
  | .error e => .error e
  | .ok out => if ferror then .error .read else .ok out

/-! ### The format of the stream -/

def Unbroken (line : Bytes) : Prop := newline ∈ line ∨ 0 ∈ line ∨ line.length < stdinRoom

inductive Shows : Bytes → Option (SecretKey × Bytes) → Prop
  | blank {line : Bytes} (hline : Unbroken line) (htext : lineText line = []) : Shows line none
  | entry {line value : Bytes} {key : SecretKey} (hline : Unbroken line)
      (htext : lineText line = bytes key.name ++ equalsSign :: value) (hvalue : value ≠ []) :
      Shows line (some (key, value))

/-- Few lines, each of which shows a key and a value or nothing, and no key twice. -/
def InFormat (lines : List Bytes) : Prop :=
  lines.length ≤ stdinMaxLines ∧ ∃ shown, List.Forall₂ Shows lines shown ∧
    (shown.reduceOption.map Prod.fst).Nodup

/-- What `fgets` stores: no more than the buffer holds, and a newline at most at the end. -/
def IsFill (line : Bytes) : Prop := line.length ≤ stdinRoom ∧ newline ∉ line.dropLast

variable {line stream : Bytes} {malloc : ℕ → Bool} {out out' : StdinSecrets} {lines : List Bytes}

theorem slotOf_name (key : SecretKey) : slotOf (bytes key.name) = some key := by
  cases key <;> decide +kernel

theorem slotOf_eq_some {key : Bytes} {slot : SecretKey} (h : slotOf key = some slot) :
    key = bytes slot.name := by
  simp only [slotOf] at h
  split at h
  · rename_i hkey
    rw [hkey, Option.some.inj h]
  · split at h
    · rename_i hkey
      rw [hkey, Option.some.inj h]
    · split at h
      · rename_i hkey
        rw [hkey, Option.some.inj h]
      · split at h
        · rename_i hkey
          rw [hkey, Option.some.inj h]
        · cases h

theorem equalsSign_notMem_name (key : SecretKey) : equalsSign ∉ bytes key.name := by
  cases key <;> decide +kernel

theorem lineText_sublist (line : Bytes) : (lineText line).Sublist (cString line) := by
  have hstrip : ∀ (text : Bytes) (c : UInt8),
      (if text.getLast? = some c then text.dropLast else text).Sublist text := by
    intro text c
    split
    · exact List.dropLast_sublist text
    · exact List.Sublist.refl text
  exact (hstrip _ _).trans (hstrip _ _)

theorem newline_mem_iff (h : newline ∉ line.dropLast) :
    newline ∈ line ↔ line.getLast? = some newline := by
  refine ⟨fun hmem => ?_, List.mem_of_getLast?⟩
  have hne : line ≠ [] := List.ne_nil_of_mem hmem
  rw [← List.dropLast_append_getLast hne, List.mem_append, or_iff_right h,
    List.mem_singleton] at hmem
  rw [List.getLast?_eq_some_getLast hne, hmem]

theorem unbroken_iff (hfill : IsFill line) :
    Unbroken line ↔
      ¬((cString line).getLast? ≠ some newline ∧ (cString line).length = stdinRoom) := by
  obtain ⟨hlength, hnewline⟩ := hfill
  by_cases hzero : 0 ∈ line
  · have hshort := length_cString_lt hzero
    refine iff_of_true (.inr (.inl hzero)) fun h => ?_
    omega
  · rw [cString_of_zero_notMem hzero, Unbroken, newline_mem_iff hnewline, or_iff_right hzero]
    by_cases hlast : line.getLast? = some newline
    · simp [hlast]
    · simp only [hlast, false_or, ne_eq, not_false_eq_true, true_and]
      omega

theorem shows_none_iff (hfill : IsFill line) :
    Shows line none ↔ readLine line = .ok none := by
  simp only [readLine]
  constructor
  · rintro ⟨hline, htext⟩
    rw [if_neg ((unbroken_iff hfill).mp hline), if_pos htext]
  · intro h
    split at h
    · cases h
    rename_i hbroken
    split at h
    · rename_i htext
      exact .blank ((unbroken_iff hfill).mpr hbroken) htext
    · split at h
      · cases h
      · split at h
        · cases h
        · split at h <;> cases h

variable {key : SecretKey} {value : Bytes}

theorem shows_some_iff (hfill : IsFill line) :
    Shows line (some (key, value)) ↔
      readLine line = .ok (some (bytes key.name, value)) := by
  simp only [readLine]
  constructor
  · intro h
    cases h with | entry hline htext hvalue => ?_
    have hparts := @takeWhile_sep _ _ _ _ value (equalsSign_notMem_name key)
    obtain ⟨hkey, hrest⟩ := hparts
    have hlength := (lineText_sublist line).length_le.trans (length_cString_le line)
    have hshort : ¬stdinMaxValue < value.length := by
      have hroom := hfill.1
      rw [htext, List.length_append, List.length_cons] at hlength
      rw [stdinRoom] at hroom
      omega
    rw [if_neg ((unbroken_iff hfill).mp hline), htext, if_neg (by simp), if_neg (by simp), hkey,
      hrest, List.drop_succ_cons, List.drop_zero, if_neg hvalue, if_neg hshort]
  · intro h
    split at h
    · cases h
    rename_i hbroken
    split at h
    · cases h
    · split at h
      · cases h
      · rename_i hequals
        split at h
        · cases h
        rename_i hvalue
        split at h
        · cases h
        · have hparts := takeWhile_append_sep (not_not.mp hequals)
          obtain ⟨hkey, rfl⟩ := Prod.mk.inj (Option.some.inj (Except.ok.inj h))
          rw [hkey] at hparts
          exact .entry ((unbroken_iff hfill).mpr hbroken) hparts hvalue

def fillSlots (entries : List (SecretKey × Bytes)) (out : StdinSecrets) : StdinSecrets :=
  entries.foldl (fun out entry => out.set entry.2 entry.1) out

theorem readLines_cons {rest : List Bytes} {lines : ℕ} (hfill : IsFill line) :
    readLines malloc (line :: rest) lines out = .ok out' ↔
      lines + 1 ≤ stdinMaxLines ∧
        ((Shows line none ∧ readLines malloc rest (lines + 1) out = .ok out') ∨
          ∃ key value, Shows line (some (key, value)) ∧ malloc lines = true ∧
            out.get key = none ∧ readLines malloc rest (lines + 1) (out.set value key) = .ok out') := by
  rw [readLines]
  by_cases hcount : stdinMaxLines < lines + 1
  · rw [if_pos hcount]
    simp only [reduceCtorEq, false_iff, not_and]
    omega
  · rw [if_neg hcount, shows_none_iff hfill]
    simp only [shows_some_iff hfill, Nat.le_of_not_lt hcount, true_and]
    rcases hread : readLine line with e | _ | ⟨key, value⟩
    · simp
    · simp
    · simp only [Except.ok.injEq, reduceCtorEq, false_and, false_or, Option.some.injEq,
        Prod.mk.injEq]
      cases hmalloc : malloc lines
      · simp
      · simp only [if_true, true_and, stdinAssign]
        cases hslot : slotOf key with
        | none =>
          simp only [reduceCtorEq, false_iff, not_exists, not_and]
          rintro slot _ ⟨rfl, -⟩
          rw [slotOf_name] at hslot
          cases hslot
        | some slot =>
          obtain rfl := slotOf_eq_some hslot
          have hname : ∀ other : SecretKey,
              bytes slot.name = bytes other.name ↔ slot = other := by
            intro other
            refine ⟨fun h => ?_, fun h => by rw [h]⟩
            have hother := slotOf_name other
            rw [← h, slotOf_name] at hother
            exact Option.some.inj hother
          cases hset : out.get slot <;> simp [hname, hset]

theorem readLines_eq_ok_iff {n : ℕ} (hfills : ∀ line ∈ lines, IsFill line)
    (hn : n ≤ stdinMaxLines) :
    readLines (fun _ => true) lines n out = .ok out' ↔
      n + lines.length ≤ stdinMaxLines ∧ ∃ shown, List.Forall₂ Shows lines shown ∧
        (shown.reduceOption.map Prod.fst).Nodup ∧
        (∀ key ∈ shown.reduceOption.map Prod.fst, out.get key = none) ∧
        out' = fillSlots shown.reduceOption out := by
  induction lines generalizing n out with
  | nil =>
    simp only [readLines, Except.ok.injEq, List.length_nil, Nat.add_zero, hn, true_and,
      List.forall₂_nil_left_iff, exists_eq_left]
    simp [List.reduceOption, fillSlots, eq_comm]
  | cons line rest ih =>
    obtain ⟨hfill, hfills⟩ := List.forall_mem_cons.mp hfills
    rw [readLines_cons hfill, List.length_cons]
    constructor
    · rintro ⟨hcount, ⟨hblank, hrest⟩ | ⟨key, value, hentry, -, hfree, hrest⟩⟩
      · obtain ⟨htotal, shown, hshown, hnodup, hslots, hout⟩ := (ih hfills hcount).mp hrest
        rw [← List.reduceOption_cons_of_none] at hnodup hslots hout
        exact ⟨by omega, none :: shown, .cons hblank hshown, hnodup, hslots, hout⟩
      · obtain ⟨htotal, shown, hshown, hnodup, hslots, hout⟩ := (ih hfills hcount).mp hrest
        refine ⟨by omega, some (key, value) :: shown, .cons hentry hshown, ?_, ?_, ?_⟩
        · rw [List.reduceOption_cons_of_some, List.map_cons, List.nodup_cons]
          refine ⟨fun hmem => ?_, hnodup⟩
          have hset := hslots key hmem
          rw [StdinSecrets.get_set, if_pos rfl] at hset
          cases hset
        · rw [List.reduceOption_cons_of_some, List.map_cons, List.forall_mem_cons]
          refine ⟨hfree, fun other hother => ?_⟩
          have hset := hslots other hother
          rw [StdinSecrets.get_set] at hset
          split at hset
          · cases hset
          · exact hset
        · rw [hout, List.reduceOption_cons_of_some]
          rfl
    · rintro ⟨htotal, shown, hshown, hnodup, hslots, hout⟩
      have hcount : n + 1 ≤ stdinMaxLines := by omega
      obtain ⟨first, rest', hfirst, hrest', rfl⟩ := List.forall₂_cons_left_iff.mp hshown
      refine ⟨hcount, ?_⟩
      cases first with
      | none =>
        refine .inl ⟨hfirst, (ih hfills hcount).mpr ⟨by omega, rest', hrest', ?_⟩⟩
        simp only [List.reduceOption_cons_of_none] at hnodup hslots hout
        exact ⟨hnodup, hslots, hout⟩
      | some entry =>
        rw [List.reduceOption_cons_of_some] at hnodup hslots hout
        obtain ⟨hnew, hnodup⟩ := List.nodup_cons.mp hnodup
        obtain ⟨hfree, hslots⟩ := List.forall_mem_cons.mp hslots
        refine .inr ⟨entry.1, entry.2, hfirst, rfl, hfree, (ih hfills hcount).mpr
          ⟨by omega, rest', hrest', hnodup, fun key hkey => ?_, hout⟩⟩
        have hne : key ≠ entry.1 := fun h => hnew (by rwa [h] at hkey)
        rw [StdinSecrets.get_set, if_neg hne]
        exact hslots key hkey

theorem readLines_of_malloc {n : ℕ} (hfills : ∀ line ∈ lines, IsFill line)
    (h : readLines malloc lines n out = .ok out') :
    readLines (fun _ => true) lines n out = .ok out' := by
  induction lines generalizing n out with
  | nil => exact h
  | cons line rest ih =>
    obtain ⟨hfill, hfills⟩ := List.forall_mem_cons.mp hfills
    rw [readLines_cons hfill] at h ⊢
    obtain ⟨hcount, ⟨hblank, hrest⟩ | ⟨key, value, hentry, -, hfree, hrest⟩⟩ := h
    · exact ⟨hcount, .inl ⟨hblank, ih hfills hrest⟩⟩
    · exact ⟨hcount, .inr ⟨key, value, hentry, rfl, hfree, ih hfills hrest⟩⟩

theorem isFill_of_mem (h : line ∈ fills stdinRoom stream) : IsFill line :=
  fill_of_mem h

theorem readSecrets_eq_ok {ferror : Bool} (h : readSecrets malloc ferror stream = .ok out) :
    InFormat (fills stdinRoom stream) ∧
      ∃ shown, List.Forall₂ Shows (fills stdinRoom stream) shown ∧
        out = fillSlots shown.reduceOption {} := by
  have hfills : ∀ line ∈ fills stdinRoom stream, IsFill line := fun _ => isFill_of_mem
  rw [readSecrets] at h
  split at h
  · cases h
  rename_i out₁ hlines
  split at h
  · cases h
  · cases h
    obtain ⟨hcount, shown, hshown, hnodup, -, hout⟩ :=
      (readLines_eq_ok_iff hfills (Nat.zero_le _)).mp (readLines_of_malloc hfills hlines)
    rw [Nat.zero_add] at hcount
    exact ⟨⟨hcount, shown, hshown, hnodup⟩, shown, hshown, hout⟩

theorem exists_readSecrets (h : InFormat (fills stdinRoom stream)) :
    ∃ out, readSecrets (fun _ => true) false stream = .ok out := by
  have hfills : ∀ line ∈ fills stdinRoom stream, IsFill line := fun _ => isFill_of_mem
  obtain ⟨hcount, shown, hshown, hnodup⟩ := h
  have hfree : ∀ key ∈ shown.reduceOption.map Prod.fst, ({} : StdinSecrets).get key = none := by
    rintro (_ | _ | _ | _) - <;> rfl
  have hlines := (readLines_eq_ok_iff hfills (Nat.zero_le _)).mpr
    ⟨by rwa [Nat.zero_add], shown, hshown, hnodup, hfree, rfl⟩
  exact ⟨_, by rw [readSecrets, hlines]; rfl⟩

/-! ### What the slots hold -/

theorem get_fillSlots {entries : List (SecretKey × Bytes)}
    (h : (fillSlots entries out).get key = some value) :
    (key, value) ∈ entries ∨ out.get key = some value := by
  induction entries generalizing out with
  | nil => exact .inr h
  | cons entry entries ih =>
    rcases ih h with hmem | hset
    · exact .inl (List.mem_cons_of_mem _ hmem)
    · rw [StdinSecrets.get_set] at hset
      split at hset
      · rename_i hkey
        rw [hkey, ← Option.some.inj hset]
        exact .inl List.mem_cons_self
      · exact .inr hset

variable {shown : List (Option (SecretKey × Bytes))} {entry : Option (SecretKey × Bytes)}

theorem exists_shows_of_mem
    (h : List.Forall₂ Shows lines shown)
    (hentry : entry ∈ shown) : ∃ line, Shows line entry := by
  induction h with
  | nil => exact absurd hentry List.not_mem_nil
  | cons hfirst _ ih =>
    rcases List.mem_cons.mp hentry with rfl | hentry
    · exact ⟨_, hfirst⟩
    · exact ih hentry

theorem zero_notMem_slot {ferror : Bool}
    (h : readSecrets malloc ferror stream = .ok out) (hvalue : out.get key = some value) :
    0 ∉ value := by
  obtain ⟨-, shown, hshown, rfl⟩ := readSecrets_eq_ok h
  have hmem : some (key, value) ∈ shown := by
    rcases get_fillSlots hvalue with hmem | hempty
    · exact List.reduceOption_mem_iff.mp hmem
    · cases key <;> cases hempty
  obtain ⟨line, hline⟩ := exists_shows_of_mem hshown hmem
  cases hline with
  | entry _ htext _ =>
    intro hzero
    have htext' : 0 ∈ lineText line := by
      rw [htext]
      exact List.mem_append_right _ (List.mem_cons_of_mem _ hzero)
    exact zero_notMem_cString line ((lineText_sublist line).subset htext')

/-! ### What the writer writes -/

def streamOf (values : List (SecretKey × String)) : Bytes :=
  values.flatMap fun kv => bytes (kv.1.name ++ "=" ++ kv.2) ++ [newline]

def Writable (value : String) : Prop :=
  '\n' ∉ value.toList ∧ '\r' ∉ value.toList ∧ value ≠ ""

variable {creds : AwsCredentials}

theorem buildStdinSecrets_eq_some {dek : Option String} {text : String}
    (h : buildStdinSecrets creds dek = some text) :
    (∀ kv ∈ stdinValues creds dek, Writable kv.2) ∧
      bytes text = streamOf (stdinValues creds dek) := by
  have hwritten : ∀ (values : List (SecretKey × String)) (out : String),
      bytes (values.foldl (fun out kv => out ++ kv.1.name ++ "=" ++ kv.2 ++ "\n") out) =
        bytes out ++ streamOf values := by
    intro values
    induction values with
    | nil => simp [streamOf]
    | cons kv values ih =>
      intro out
      have hnewline : bytes "\n" = [newline] := by decide +kernel
      rw [List.foldl_cons, ih]
      simp [streamOf, hnewline, List.append_assoc]
  simp only [buildStdinSecrets, Option.ite_none_left_eq_some, Option.some.injEq] at h
  obtain ⟨hvalues, rfl⟩ := h
  have hempty : bytes "" = [] := by decide +kernel
  refine ⟨fun kv hkv => ?_, by rw [hwritten, hempty, List.nil_append]⟩
  have hkv := fun hbad => hvalues (List.any_eq_true.mpr ⟨kv, hkv, hbad⟩)
  simpa [Writable, not_or] using hkv

theorem asciiByte_mem_bytes {c : Char} (hc : isAscii c = true) {value : String} :
    asciiByte c ∈ bytes value ↔ c ∈ value.toList := by
  rw [bytes_eq_flatMap, List.mem_flatMap]
  constructor
  · rintro ⟨d, hd, hmem⟩
    rwa [← (asciiByte_mem_utf8EncodeChar hc).mp hmem]
  · exact fun hmem => ⟨c, hmem, (asciiByte_mem_utf8EncodeChar hc).mpr rfl⟩

def entryBytes (key : SecretKey) (value : String) : Bytes :=
  bytes key.name ++ equalsSign :: bytes value

theorem bytes_entry (key : SecretKey) (value : String) :
    bytes (key.name ++ "=" ++ value) = entryBytes key value := by
  have hequals : bytes "=" = [equalsSign] := by decide +kernel
  simp [entryBytes, hequals]

theorem name_plain (key : SecretKey) : 0 ∉ bytes key.name ∧ newline ∉ bytes key.name := by
  cases key <;> decide +kernel

section

variable (key : SecretKey) {value : String}

theorem newline_notMem_entryBytes (h : Writable value) : newline ∉ entryBytes key value := by
  have hvalue : newline ∉ bytes value :=
    fun hmem => h.1 ((asciiByte_mem_bytes (c := '\n') (by decide)).mp hmem)
  simp only [entryBytes, List.mem_append, List.mem_cons, not_or]
  exact ⟨(name_plain key).2, by decide, hvalue⟩

theorem zero_notMem_entryBytes (h : '\x00' ∉ value.toList) : 0 ∉ entryBytes key value := by
  have hvalue : 0 ∉ bytes value :=
    fun hmem => h ((asciiByte_mem_bytes (c := '\x00') (by decide)).mp hmem)
  simp only [entryBytes, List.mem_append, List.mem_cons, not_or]
  exact ⟨(name_plain key).1, by decide, hvalue⟩

theorem bytes_ne_nil (h : Writable value) : bytes value ≠ [] := by
  intro hnil
  have hempty : bytes "" = [] := by decide +kernel
  exact h.2.2 (bytes_injective (hnil.trans hempty.symm))

theorem lineText_entryBytes (h : Writable value) (hnul : '\x00' ∉ value.toList) :
    lineText (entryBytes key value ++ [newline]) = entryBytes key value := by
  have hzero : 0 ∉ entryBytes key value ++ [newline] := by
    rw [List.mem_append, List.mem_singleton, not_or]
    exact ⟨zero_notMem_entryBytes key hnul, by decide⟩
  have hreturn : carriageReturn ∉ bytes value :=
    fun hmem => h.2.1 ((asciiByte_mem_bytes (c := '\r') (by decide)).mp hmem)
  have hlast : (entryBytes key value).getLast? ≠ some carriageReturn := by
    rw [entryBytes, List.getLast?_append_of_ne_nil _ (by simp),
      List.getLast?_cons_of_ne_nil (bytes_ne_nil h)]
    exact fun hget => hreturn (List.mem_of_getLast? hget)
  simp [lineText, cString_of_zero_notMem hzero, hlast]

theorem shows_entryBytes (h : Writable value) (hnul : '\x00' ∉ value.toList)
    (hshows : Shows (entryBytes key value ++ [newline]) entry) :
    entry = some (key, bytes value) := by
  have hread := lineText_entryBytes key h hnul
  obtain ⟨hname, hvalue⟩ := @takeWhile_sep _ _ _ _ (bytes value)
    (equalsSign_notMem_name key)
  cases hshows with
  | blank _ htext =>
    rw [hread] at htext
    exact absurd htext (by simp [entryBytes])
  | @entry value' key' _ htext _ =>
    obtain ⟨hname', hvalue'⟩ := @takeWhile_sep _ _ _ _ value' (equalsSign_notMem_name key')
    rw [hread, entryBytes] at htext
    rw [htext, hname'] at hname
    rw [htext, hvalue'] at hvalue
    have hkey : key' = key := by
      have hslot := slotOf_name key'
      rw [hname, slotOf_name] at hslot
      exact (Option.some.inj hslot).symm
    rw [hkey, (List.cons.inj hvalue).2]

end

theorem shown_eq {values : List (SecretKey × String)}
    (hvalues : ∀ kv ∈ values, Writable kv.2 ∧ '\x00' ∉ kv.2.toList)
    (h : List.Forall₂ Shows (fills stdinRoom (streamOf values)) shown) :
    shown = values.map fun kv => some (kv.1, bytes kv.2) := by
  induction values generalizing shown with
  | nil =>
    rw [show streamOf [] = [] from rfl, fills_nil, List.forall₂_nil_left_iff] at h
    rw [h, List.map_nil]
  | cons kv values ih =>
    obtain ⟨⟨hwritable, hnul⟩, hvalues⟩ := List.forall_mem_cons.mp hvalues
    have hstream : streamOf (kv :: values) =
        entryBytes kv.1 kv.2 ++ newline :: streamOf values := by
      rw [streamOf, List.flatMap_cons, bytes_entry, List.append_assoc]
      rfl
    have hnewline := newline_notMem_entryBytes kv.1 hwritable
    rw [hstream] at h
    by_cases hfits : (entryBytes kv.1 kv.2).length < stdinRoom
    · rw [fills_line hnewline hfits] at h
      obtain ⟨first, rest, hfirst, hrest, rfl⟩ := List.forall₂_cons_left_iff.mp h
      rw [List.map_cons, shows_entryBytes kv.1 hwritable hnul hfirst, ih hvalues hrest]
    · -- the first fill is cut off inside the line, and no NUL hides it
      have hlong := Nat.not_lt.mp hfits
      rw [fills_eq_cons (by decide) (by simp), fgets_long hnewline hlong] at h
      obtain ⟨first, rest, hfirst, -, -⟩ := List.forall₂_cons_left_iff.mp h
      have hbroken : ¬Unbroken ((entryBytes kv.1 kv.2).take stdinRoom) := by
        rintro (hmem | hmem | hshort)
        · exact hnewline (List.mem_of_mem_take hmem)
        · exact zero_notMem_entryBytes kv.1 hnul (List.mem_of_mem_take hmem)
        · rw [List.length_take, Nat.min_eq_left hlong] at hshort
          exact absurd hshort (Nat.lt_irrefl _)
      cases hfirst with
      | blank hline _ => exact absurd hline hbroken
      | entry hline _ _ => exact absurd hline hbroken

/-! ### Whole or not at all -/

/-- The helper refuses, or has the secrets that were sent. -/
def Delivered (creds : AwsCredentials) (dek : Option String) :
    Except StdinError StdinSecrets → Prop
  | .error _ => True
  | .ok out => out =
      { accessKeyId := some (bytes creds.accessKeyId)
        secretAccessKey := some (bytes creds.secretAccessKey)
        sessionToken := some (bytes creds.sessionToken)
        plaintextB64 := dek.map bytes }

/-- Secrets reach the helper whole or not at all if and only if no value has a NUL, or the lines
that the helper sees are not in its format: more than eight, one that is too long or no entry, or
a slot that occurs twice. -/
theorem secrets_delivered_iff {dek : Option String} {text : String}
    (hbuilt : buildStdinSecrets creds dek = some text) :
    (∀ malloc ferror, Delivered creds dek (readSecrets malloc ferror (bytes text))) ↔
      (∀ kv ∈ stdinValues creds dek, '\x00' ∉ kv.2.toList) ∨
        ¬InFormat (fills stdinRoom (streamOf (stdinValues creds dek))) := by
  obtain ⟨hwritable, hstream⟩ := buildStdinSecrets_eq_some hbuilt
  rw [hstream]
  constructor
  · intro hdelivered
    by_cases hformat : InFormat (fills stdinRoom (streamOf (stdinValues creds dek)))
    · left
      obtain ⟨out, hout⟩ := exists_readSecrets hformat
      have hexact := hdelivered (fun _ => true) false
      rw [hout] at hexact
      have hnul : ∀ (key : SecretKey) (value : String), out.get key = some (bytes value) →
          '\x00' ∉ value.toList := by
        intro key value hget hmem
        exact zero_notMem_slot hout hget ((asciiByte_mem_bytes (c := '\x00') (by decide)).mpr hmem)
      rw [stdinValues, List.forall_mem_append]
      constructor
      · simp only [List.mem_cons, List.not_mem_nil, or_false, forall_eq_or_imp, forall_eq]
        rw [hexact] at hnul
        exact ⟨hnul .accessKeyId _ rfl, hnul .secretAccessKey _ rfl, hnul .sessionToken _ rfl⟩
      · rintro kv hkv
        obtain ⟨value, rfl, rfl⟩ := Option.map_eq_some_iff.mp (Option.mem_toList.mp hkv)
        exact hnul .plaintextB64 value (by rw [hexact]; rfl)
    · exact .inr hformat
  · rintro hcases malloc ferror
    rcases hread : readSecrets malloc ferror (streamOf (stdinValues creds dek)) with e | out
    · trivial
    · obtain ⟨hformat, shown, hshown, rfl⟩ := readSecrets_eq_ok hread
      have hnul := hcases.resolve_right (not_not.mpr hformat)
      rw [shown_eq (fun kv hkv => ⟨hwritable kv hkv, hnul kv hkv⟩) hshown]
      cases dek <;> rfl

namespace Sample

def helperCreds (sessionToken : String) : AwsCredentials where
  accessKeyId := "AKIAEXAMPLE"
  secretAccessKey := "secret"
  sessionToken := sessionToken

def helperStream (sessionToken : String) : String :=
  "AWS_ACCESS_KEY_ID=AKIAEXAMPLE\nAWS_SECRET_ACCESS_KEY=secret\nAWS_SESSION_TOKEN=" ++
    sessionToken ++ "\n"

end Sample

open Sample in
/-- Credentials without a NUL reach the helper whole or not at all. -/
theorem secrets_delivered_iff_plain :
    buildStdinSecrets (helperCreds "session") none = some (helperStream "session") ∧
      ∀ malloc ferror, Delivered (helperCreds "session") none
        (readSecrets malloc ferror (bytes (helperStream "session"))) := by
  have hbuilt : buildStdinSecrets (helperCreds "session") none = some (helperStream "session") := by
    decide +kernel
  refine ⟨hbuilt, (secrets_delivered_iff hbuilt).mpr (.inl ?_)⟩
  decide

open Sample in
/-- A session token with a NUL is written, and reaches the helper cut off. -/
theorem session_token_truncated :
    buildStdinSecrets (helperCreds "session\x00token") none =
        some (helperStream "session\x00token") ∧
      readSecrets (fun _ => true) false (bytes (helperStream "session\x00token")) = .ok
        { accessKeyId := some (bytes "AKIAEXAMPLE")
          secretAccessKey := some (bytes "secret")
          sessionToken := some (bytes "session") } ∧
      ¬Delivered (helperCreds "session\x00token") none
        (readSecrets (fun _ => true) false (bytes (helperStream "session\x00token"))) := by
  have hread : readSecrets (fun _ => true) false
      (bytes (helperStream "session\x00token")) = .ok
        { accessKeyId := some (bytes "AKIAEXAMPLE")
          secretAccessKey := some (bytes "secret")
          sessionToken := some (bytes "session") } := by
    decide +kernel
  refine ⟨by decide +kernel, hread, ?_⟩
  rw [hread, Delivered]
  decide +kernel

end Signer
