import Signer.Sample

/-!
# Bearer tokens

The gateway reads its tokens twice: at boot into a table of digests, which a request's token is
looked up in, and again when the unwind job needs the token of a customer. The table answers with
the last entry of a token, the job takes the first entry of a label.
-/

namespace Signer.Gateway

open Text

inductive VarError where
  | notPresent
  | notUnicode (raw : Bytes)
  deriving DecidableEq

inductive AuthConfigError where
  | noValidEntries
  | customerLabelHasDelimiter (label : String)
  | notUnicode (raw : Bytes)
  | authRequired
  deriving DecidableEq

structure AuthVars where
  tokens : Except VarError String
  allowNoAuth : Option String := none
  requireAuth : Option String := none

structure AuthState where
  hashes : List (Bytes × String) := []
  deriving DecidableEq

/-- `env_flag_enabled` of the token parser. -/
def authFlagEnabled (value : Option String) : Bool :=
  value.any fun v =>
    let v := toAsciiLowercase (trim v)
    v = "1" ∨ v = "true" ∨ v = "yes"

def tokenEntry (entry : String) : Option (String × String) :=
  let trimmed := trim entry
  if trimmed = "" then none
  else
    match splitOnce ':' trimmed with
    | none => none
    | some (token, customer) =>
      let token := trim token
      let customer := trim customer
      if token = "" ∨ customer = "" then none else some (token, customer)

def tokenEntries (raw : String) : List (String × String) := (split ',' raw).filterMap tokenEntry

/-- The loop of `from_env_var`. -/
def hashEntries (sha256 : Bytes → Bytes) :
    List String → Except AuthConfigError (List (Bytes × String))
  | [] => .ok []
  | entry :: rest =>
    match tokenEntry entry with
    | none => hashEntries sha256 rest
    | some (token, customer) =>
      if ':' ∈ customer.toList ∨ '/' ∈ customer.toList then
        .error (.customerLabelHasDelimiter customer)
      else (hashEntries sha256 rest).map ((sha256 (bytes token), customer) :: ·)

def noAuth (vars : AuthVars) : Except AuthConfigError AuthState :=
  if authFlagEnabled vars.allowNoAuth ∧ ¬ authFlagEnabled vars.requireAuth then .ok {}
  else .error .authRequired

def fromEnvVar (sha256 : Bytes → Bytes) (vars : AuthVars) : Except AuthConfigError AuthState :=
  match vars.tokens with
  | .ok raw =>
    if trim raw = "" then noAuth vars
    else
      match hashEntries sha256 (split ',' raw) with
      | .error e => .error e
      | .ok hashes => if hashes = [] then .error .noValidEntries else .ok { hashes }
  | .error .notPresent => noAuth vars
  | .error (.notUnicode bytes) => .error (.notUnicode bytes)

def usizeMax : UInt64 := 0 - 1

/-- The index after one turn of `AuthState::lookup`. -/
def maskedIndex (matched : UInt64) (i : ℕ) (equal : Bool) : UInt64 :=
  let mask : UInt64 := 0 - equal.toUInt64
  (matched &&& ~~~mask) ||| (UInt64.ofNat i &&& mask)

/-- The loop of `AuthState::lookup`, as an index. -/
def matchedIndex (incoming : Bytes) (hashes : List (Bytes × String)) : UInt64 :=
  hashes.zipIdx.foldl (fun matched entry => maskedIndex matched entry.2 (entry.1.1 = incoming))
    usizeMax

def AuthState.lookup (sha256 : Bytes → Bytes) (auth : AuthState) (token : String) :
    Option String :=
  let matched := matchedIndex (sha256 (bytes token)) auth.hashes
  if matched = usizeMax then none else auth.hashes[matched.toNat]?.map Prod.snd

/-- The token of an entry of `raw_token_for_customer`, if it has the label. -/
def labelledToken (label entry : String) : Option String :=
  match splitOnce ':' (trim entry) with
  | none => none
  | some (token, cust) =>
    let token := trim token
    let cust := trim cust
    if token = "" ∨ cust = "" then none else if cust = label then some token else none

def rawTokenForCustomer (tokens : Except VarError String) (label : String) : Option String :=
  match tokens with
  | .error _ => none
  | .ok raw => (split ',' raw).findSome? (labelledToken label)

section

variable {sha256 : Bytes → Bytes} {raw label : String} {incoming : Bytes}
  {hashes : List (Bytes × String)} {auth : AuthState} {vars : AuthVars}

/-! ### The scan -/

theorem maskedIndex_true (matched : UInt64) (i : ℕ) :
    maskedIndex matched i true = UInt64.ofNat i := by
  simp [maskedIndex, Bool.toUInt64]

theorem maskedIndex_false (matched : UInt64) (i : ℕ) : maskedIndex matched i false = matched := by
  simp [maskedIndex, Bool.toUInt64]

theorem matchedIndex_concat (entry : Bytes × String) :
    matchedIndex incoming (hashes ++ [entry]) =
      maskedIndex (matchedIndex incoming hashes) hashes.length (entry.1 = incoming) := by
  simp [matchedIndex, List.zipIdx_append]

theorem matchedIndex_spec (incoming : Bytes) (hsize : hashes.length < 2 ^ 64 - 1) :
    (matchedIndex incoming hashes = usizeMax ∧ hashes.filter (·.1 = incoming) = []) ∨
      ∃ entry, (matchedIndex incoming hashes).toNat < hashes.length ∧
        hashes[(matchedIndex incoming hashes).toNat]? = some entry ∧
        (hashes.filter (·.1 = incoming)).getLast? = some entry := by
  induction hashes using List.reverseRecOn with
  | nil => exact .inl ⟨rfl, rfl⟩
  | append_singleton hashes entry ih =>
    rw [List.length_append, List.length_singleton] at hsize
    rw [matchedIndex_concat, List.filter_append]
    by_cases heq : entry.1 = incoming
    · have hindex : (UInt64.ofNat hashes.length).toNat = hashes.length :=
        UInt64.toNat_ofNat_of_lt' (by simp only [UInt64.size]; omega)
      refine .inr ⟨entry, ?_⟩
      simp [heq, maskedIndex_true, hindex]
    · simp only [heq, decide_false, maskedIndex_false]
      rw [List.filter_cons_of_neg (by simp [heq]), List.filter_nil, List.append_nil]
      rcases ih (by omega) with hnone | ⟨found, hlt, hget, hlast⟩
      · exact .inl hnone
      · refine .inr ⟨found, ?_, ?_, hlast⟩
        · rw [List.length_append]
          omega
        · rw [List.getElem?_append_left hlt, hget]

theorem lookup_eq_getLast (hsize : auth.hashes.length < 2 ^ 64 - 1) (token : String) :
    auth.lookup sha256 token =
      (auth.hashes.filter (·.1 = sha256 (bytes token))).getLast?.map Prod.snd := by
  unfold AuthState.lookup
  rcases matchedIndex_spec (sha256 (bytes token)) hsize with
    ⟨hindex, hnone⟩ | ⟨entry, hlt, hget, hlast⟩
  · simp [hindex, hnone]
  · have hne : matchedIndex (sha256 (bytes token)) auth.hashes ≠ usizeMax := by
      intro heq
      rw [heq] at hlt
      have hmax : usizeMax.toNat = 2 ^ 64 - 1 := rfl
      omega
    simp only [hne, if_false, hget, hlast]

/-! ### The entries -/

theorem hashEntries_ok {entries : List String} (h : hashEntries sha256 entries = .ok hashes) :
    hashes = (entries.filterMap tokenEntry).map fun entry => (sha256 (bytes entry.1), entry.2) := by
  induction entries generalizing hashes with
  | nil =>
    cases h
    rfl
  | cons entry rest ih =>
    rw [hashEntries] at h
    cases hentry : tokenEntry entry with
    | none =>
      rw [hentry] at h
      rw [List.filterMap_cons_none hentry]
      exact ih h
    | some pair =>
      obtain ⟨token, customer⟩ := pair
      rw [hentry] at h
      dsimp only at h
      split at h
      · cases h
      · cases hrest : hashEntries sha256 rest with
        | error e =>
          rw [hrest] at h
          cases h
        | ok more =>
          rw [hrest] at h
          cases h
          rw [List.filterMap_cons_some hentry, List.map_cons, ih hrest]

theorem isWhitespace_of_trim (h : trim raw = "") : ∀ c ∈ raw.toList, isWhitespace c = true := by
  have hend := List.reverse_eq_nil_iff.mp (String.ofList_injective h)
  have hrest := List.dropWhile_eq_nil_iff.mp hend
  intro c hc
  rw [← List.takeWhile_append_dropWhile (p := isWhitespace) (l := raw.toList)] at hc
  rcases List.mem_append.mp hc with hstart | hc
  · exact List.mem_takeWhile_imp hstart
  · exact hrest c (List.mem_reverse.mpr hc)

theorem tokenEntries_of_blank (h : trim raw = "") : tokenEntries raw = [] := by
  have hcomma : ',' ∉ raw.toList := fun hmem =>
    absurd (isWhitespace_of_trim h _ hmem) (by decide)
  rw [tokenEntries, split_of_notMem hcomma]
  simp [tokenEntry, h]

theorem length_splitOn_le (sep : Char) (cs : List Char) :
    (cs.splitOn sep).length ≤ cs.length + 1 := by
  have hjoin : ∀ pieces : List (List Char),
      pieces.length ≤ ([sep].intercalate pieces).length + 1 := by
    intro pieces
    induction pieces with
    | nil => simp
    | cons piece rest ih =>
      cases rest with
      | nil => simp
      | cons next rest =>
        rw [List.intercalate_cons_cons]
        simp only [List.length_cons, List.length_append] at ih ⊢
        omega
  simpa using hjoin (cs.splitOn sep)

theorem hashes_of_fromEnvVar (hraw : vars.tokens = .ok raw) (h : fromEnvVar sha256 vars = .ok auth) :
    auth.hashes = (tokenEntries raw).map fun entry => (sha256 (bytes entry.1), entry.2) := by
  rw [fromEnvVar, hraw] at h
  dsimp only at h
  split at h
  · rename_i hblank
    rw [noAuth] at h
    split at h
    · cases h
      rw [tokenEntries_of_blank hblank]
      rfl
    · cases h
  · cases hhashes : hashEntries sha256 (split ',' raw) with
    | error e =>
      rw [hhashes] at h
      cases h
    | ok hashes =>
      rw [hhashes] at h
      dsimp only at h
      split at h
      · cases h
      · cases h
        exact hashEntries_ok hhashes

theorem lookup_eq_last (hsha : Function.Injective sha256) (hraw : vars.tokens = .ok raw)
    (hsize : raw.length < 2 ^ 63) (h : fromEnvVar sha256 vars = .ok auth) (t : String) :
    auth.lookup sha256 t = ((tokenEntries raw).filter (·.1 = t)).getLast?.map Prod.snd := by
  have hhashes := hashes_of_fromEnvVar hraw h
  have hlength : auth.hashes.length < 2 ^ 64 - 1 := by
    have hpieces := length_splitOn_le ',' raw.toList
    have hentries := List.length_filterMap_le tokenEntry (split ',' raw)
    rw [hhashes, List.length_map, tokenEntries]
    rw [split, List.length_map] at hentries
    rw [split]
    rw [String.length_toList] at hpieces
    omega
  have hdigest : ∀ entry : String × String, (decide (sha256 (bytes entry.1) = sha256 (bytes t))) =
      decide (entry.1 = t) := fun entry =>
    decide_eq_decide.mpr (hsha.eq_iff.trans bytes_injective.eq_iff)
  rw [lookup_eq_getLast hlength, hhashes, List.filter_map, List.getLast?_map, Option.map_map]
  simp only [Function.comp_def, hdigest]

theorem labelledToken_eq (label entry : String) : labelledToken label entry =
    (tokenEntry entry).bind fun pair => if pair.2 = label then some pair.1 else none := by
  unfold labelledToken tokenEntry
  dsimp only
  by_cases hempty : trim entry = ""
  · rw [hempty]
    rfl
  · rw [if_neg hempty]
    cases splitOnce ':' (trim entry) with
    | none => rfl
    | some pair =>
      dsimp only
      split <;> rfl

theorem rawTokenForCustomer_eq (hraw : vars.tokens = .ok raw) (label : String) :
    rawTokenForCustomer vars.tokens label =
      ((tokenEntries raw).find? (·.2 = label)).map Prod.fst := by
  unfold rawTokenForCustomer
  rw [hraw, tokenEntries]
  dsimp only
  induction split ',' raw with
  | nil => rfl
  | cons entry rest ih =>
    rw [List.findSome?_cons, ih, labelledToken_eq]
    cases hentry : tokenEntry entry with
    | none => rw [List.filterMap_cons_none hentry]; rfl
    | some pair =>
      rw [List.filterMap_cons_some hentry, List.find?_cons, Option.bind_some]
      by_cases hlabel : pair.2 = label <;> simp [hlabel]

/-! ### First and last -/

/-- If another label takes over the token of this one's first entry, that entry comes again later.
-/
def KeepsToken (entries : List (String × String)) (label : String) : Prop :=
  ∀ first, entries.find? (·.2 = label) = some first → ∀ before entry after,
    entries = before ++ entry :: after → entry.1 = first.1 → entry.2 ≠ label → first ∈ after

theorem keepsToken_iff {entries : List (String × String)} {first : String × String}
    (hfirst : entries.find? (·.2 = label) = some first) :
    (entries.filter (·.1 = first.1)).getLast?.map Prod.snd = some label ↔
      KeepsToken entries label := by
  have hlabel : first.2 = label := by simpa using List.find?_some hfirst
  have hmem : first ∈ entries.filter (·.1 = first.1) :=
    List.mem_filter.mpr ⟨List.mem_of_find?_eq_some hfirst, by simp⟩
  constructor
  · rintro hlast first' hfirst' before entry after hsplit htoken hother
    obtain rfl := Option.mem_unique hfirst hfirst'
    obtain ⟨last, hlast, hsame⟩ := Option.map_eq_some_iff.mp hlast
    rw [hsplit, List.filter_append, List.filter_cons_of_pos (by simpa using htoken),
      List.getLast?_append_cons] at hlast
    have hne : last ≠ entry := fun heq => hother (heq ▸ hsame)
    have hafter := (List.mem_cons.mp (List.mem_of_getLast? hlast)).resolve_left hne
    obtain ⟨hafter, hlastToken⟩ := List.mem_filter.mp hafter
    have heq : last = first := Prod.ext (by simpa using hlastToken) (hsame.trans hlabel.symm)
    exact heq ▸ hafter
  · intro hkeeps
    obtain ⟨last, hlast⟩ := Option.ne_none_iff_exists'.mp
      (mt List.getLast?_eq_none_iff.mp (List.ne_nil_of_mem hmem))
    obtain ⟨before, hsplit⟩ := List.getLast?_eq_some_iff.mp hlast
    obtain ⟨front, back, hentries, -, hback⟩ := List.filter_eq_append_iff.mp hsplit
    obtain ⟨skipped, rest, rfl, -, htoken, hrest⟩ := List.filter_eq_cons_iff.mp hback
    rw [hlast, Option.map_some, Option.some.injEq]
    by_contra hother
    have hagain := hkeeps first hfirst (front ++ skipped) last rest (by simpa using hentries)
      (by simpa using htoken) hother
    have hnone := List.filter_eq_nil_iff.mp hrest first hagain
    simp at hnone

/-- **The unwind job's token**: for an accepted configuration, a label has a token exactly if it has
an entry, a token belongs to the label of its last entry, and the token the job takes for a label
belongs to that label, exactly if no other label keeps the token of its first entry. -/
theorem unwind_token_resolves_iff (hsha : Function.Injective sha256) (hraw : vars.tokens = .ok raw)
    (hsize : raw.length < 2 ^ 63) (haccepted : fromEnvVar sha256 vars = .ok auth)
    (label : String) :
    (((rawTokenForCustomer vars.tokens label).isSome ↔
        ∃ entry ∈ tokenEntries raw, entry.2 = label) ∧
      (∀ t, rawTokenForCustomer vars.tokens label = some t →
        auth.lookup sha256 t = some label) ∧
      ∀ t, auth.lookup sha256 t =
        ((tokenEntries raw).filter (·.1 = t)).getLast?.map Prod.snd) ↔
    KeepsToken (tokenEntries raw) label := by
  have hlookup := lookup_eq_last hsha hraw hsize haccepted
  have hfound : (rawTokenForCustomer vars.tokens label).isSome ↔
      ∃ entry ∈ tokenEntries raw, entry.2 = label := by
    rw [rawTokenForCustomer_eq hraw, Option.isSome_map, List.find?_isSome]
    simp
  rw [rawTokenForCustomer_eq hraw] at hfound ⊢
  constructor
  · rintro ⟨-, hresolves, -⟩ first hfirst
    have hlast := hresolves first.1 (by rw [hfirst]; rfl)
    rw [hlookup] at hlast
    exact (keepsToken_iff hfirst).mp hlast first hfirst
  · intro hkeeps
    refine ⟨hfound, fun t ht => ?_, hlookup⟩
    obtain ⟨first, hfirst, rfl⟩ := Option.map_eq_some_iff.mp ht
    rw [hlookup]
    exact (keepsToken_iff hfirst).mpr hkeeps

end

namespace Sample

def tokenDigests : Bytes → Bytes :=
  Signer.Sample.digests
    [(bytes "tok", beBytes 32 0x1a7674eb4ee78df7e1ac439a93c3fa8e3c945784d4dec9fd8e3011738b2f1d62),
      (bytes "u", beBytes 32 0x0bfe935e70c321c7ca3afc75ce0d0ca2f98b5422e008bb31c00c6d7f1f1c0ad6)]

end Sample

/-- A token given to one customer, then to another, and to the first again. -/
theorem unwind_token_resolves_iff_again :
    ∃ auth, fromEnvVar Sample.tokenDigests { tokens := .ok "tok:a,tok:b,tok:a" } = .ok auth ∧
      rawTokenForCustomer (.ok "tok:a,tok:b,tok:a") "a" = some "tok" ∧
      auth.lookup Sample.tokenDigests "tok" = some "a" ∧
      ¬ KeepsToken (tokenEntries "tok:a,tok:b,tok:a") "b" := by
  have htoken : rawTokenForCustomer (.ok "tok:a,tok:b,tok:a") "a" = some "tok" := by decide +kernel
  have hsha : Function.Injective Sample.tokenDigests :=
    Signer.Sample.digests_injective (by decide +kernel) (by decide +kernel)
  have hentries : tokenEntries "tok:a,tok:b,tok:a" =
      [("tok", "a"), ("tok", "b"), ("tok", "a")] := by decide +kernel
  have haccepted : fromEnvVar Sample.tokenDigests { tokens := .ok "tok:a,tok:b,tok:a" } =
      .ok ⟨[(Sample.tokenDigests (bytes "tok"), "a"), (Sample.tokenDigests (bytes "tok"), "b"),
        (Sample.tokenDigests (bytes "tok"), "a")]⟩ := by decide +kernel
  refine ⟨_, haccepted, htoken, ((unwind_token_resolves_iff hsha rfl (by decide) haccepted
    "a").mpr ?_).2.1 "tok" htoken, ?_⟩
  · rw [hentries]
    exact (keepsToken_iff rfl).mp (by decide)
  · rw [hentries, ← keepsToken_iff rfl]
    decide

/-- A token given to two customers: the job takes it for the first, the table has it for the
second. -/
theorem unwind_token_of_other_customer :
    ∃ auth, fromEnvVar Sample.tokenDigests { tokens := .ok "tok:a,tok:b" } = .ok auth ∧
      rawTokenForCustomer (.ok "tok:a,tok:b") "a" = some "tok" ∧
      auth.lookup Sample.tokenDigests "tok" = some "b" :=
  ⟨⟨[(Sample.tokenDigests (bytes "tok"), "a"), (Sample.tokenDigests (bytes "tok"), "b")]⟩,
    by decide +kernel, by decide +kernel, by decide +kernel⟩

end Signer.Gateway
