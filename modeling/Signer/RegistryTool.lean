import Signer.Sample
import Signer.Text.Hex

/-!
# The control plane's signing tool

The registry an enclave installs is signed off-box by `policy-cli`. The tool checks the entries
before it signs them, by rules of its own that are meant to be those of the enclave, and signs
the message that the enclave rebuilds.
-/

namespace Signer

open Text

namespace PolicyCli

structure RefreshEntry where
  token : String
  customerId : String
  allowedVenues : List String
  deriving DecidableEq, Repr

inductive SignError where
  | noEntries
  | emptyToken (entry : Nat)
  | unsafeCustomer (entry : Nat)
  | noVenues (entry : Nat)
  | unsafeVenue (entry : Nat) (venue : String)
  | reservedVenue (entry : Nat)
  | sharedToken (entry other : Nat)
  | zeroVersion
  | badNonce
  | serialize
  deriving DecidableEq, Repr

structure ToolEnv where
  sha256 : Bytes → Bytes
  ed25519PublicKey : Bytes → Bytes
  ed25519Sign : Bytes → Bytes → Bytes
  entriesToVec : List RefreshEntry → Option Bytes

/-- `is_safe_id`, the tool's copy. -/
def isSafeId (s : String) : Bool :=
  s ≠ "" ∧ s.utf8ByteSize ≤ 64 ∧
    s.toList.all fun c => isAsciiAlphanumeric c ∨ c = '-' ∨ c = '_'

def checkVenue (i : Nat) (e : RefreshEntry) (venue : String) : Except SignError Unit :=
  if !isSafeId venue then .error (.unsafeVenue i venue)
  else if eqIgnoreAsciiCase venue "x402" ∧ e.customerId ≠ x402CustomerId then
    .error (.reservedVenue i)
  else .ok ()

def checkEntry (i : Nat) (e : RefreshEntry) : Except SignError Unit :=
  if e.token = "" then .error (.emptyToken i)
  else if !isSafeId e.customerId then .error (.unsafeCustomer i)
  else if e.allowedVenues = [] then .error (.noVenues i)
  else e.allowedVenues.forM (checkVenue i e)

/-- The first two entries that share a token, from entry `i` on. -/
def sharedToken : Nat → List RefreshEntry → Option (Nat × Nat)
  | _, [] => none
  | i, e :: rest =>
    match rest.findIdx? fun other => e.token = other.token with
    | some k => some (i, i + 1 + k)
    | none => sharedToken (i + 1) rest

def validateEntries (entries : List RefreshEntry) : Except SignError Unit := do
  if entries = [] then throw .noEntries
  entries.zipIdx.forM fun e => checkEntry e.2 e.1
  match sharedToken 0 entries with
  | some (i, j) => throw (.sharedToken i j)
  | none => pure ()

/-- `signed_message`, the tool's copy. -/
def signedMessage (nonce : Bytes) (version : UInt64) (contentHash : Bytes) : Bytes :=
  nonce ++ leBytes 8 version.toNat ++ contentHash

structure SignedRefresh where
  entriesJson : Bytes
  contentHashHex : String
  nonceHex : String
  version : UInt64
  signatureHex : String

def signRefresh (tool : ToolEnv) (entries : List RefreshEntry) (nonceHex : String)
    (version : UInt64) (seed : Bytes) : Except SignError SignedRefresh := do
  validateEntries entries
  if version = 0 then throw .zeroVersion
  match hexDecodeExact 32 (trim nonceHex) with
  | none => throw .badNonce
  | some nonce =>
    match tool.entriesToVec entries with
    | none => throw .serialize
    | some entriesJson =>
      let contentHash := tool.sha256 entriesJson
      let signature := tool.ed25519Sign seed (signedMessage nonce version contentHash)
      pure
        { entriesJson
          contentHashHex := hexEncode contentHash
          nonceHex := hexEncode nonce
          version
          signatureHex := hexEncode signature }

def RefreshEntry.read (e : RefreshEntry) : Signer.RefreshEntry :=
  { token := e.token, customerId := e.customerId, allowedVenues := e.allowedVenues }

/-- Tool and enclave share the hash and the format, and Ed25519 verifies what it signed. -/
structure Laws (tool : ToolEnv) (env : Env) (seed : Bytes) : Prop where
  sha256_eq : tool.sha256 = env.sha256
  publicKey_valid : env.ed25519KeyValid (tool.ed25519PublicKey seed) = true
  length_sign : ∀ message, (tool.ed25519Sign seed message).length = 64
  verify_sign : ∀ message,
    env.ed25519Verify (tool.ed25519PublicKey seed) message (tool.ed25519Sign seed message) = true
  round_trip : ∀ entries json, tool.entriesToVec entries = some json →
    env.entriesFromSlice json = some (entries.map RefreshEntry.read)

structure EntryChecked (e : RefreshEntry) : Prop where
  customer_safe : isSafeId e.customerId = true
  venues_safe : ∀ v ∈ e.allowedVenues, isSafeId v = true
  reserved : ∀ v ∈ e.allowedVenues, eqIgnoreAsciiCase v "x402" = true →
    e.customerId = x402CustomerId

theorem entryChecked_of_checkEntry {i : Nat} {e : RefreshEntry} (h : checkEntry i e = .ok ()) :
    EntryChecked e := by
  simp only [checkEntry, ite_error_eq_ok, forM_eq_ok_iff, checkVenue, Bool.not_eq_true,
    Bool.not_eq_false', not_and, not_not, and_true] at h
  obtain ⟨-, hcustomer, -, hvenues⟩ := h
  exact ⟨hcustomer, fun v hv => (hvenues v hv).1, fun v hv => (hvenues v hv).2⟩

theorem validateEntries_ok {entries : List RefreshEntry} (h : validateEntries entries = .ok ()) :
    entries ≠ [] ∧ ∀ e ∈ entries, EntryChecked e := by
  unfold validateEntries at h
  by_cases hnil : entries = []
  · simp [hnil, bind, Except.bind, throw, throwThe, MonadExceptOf.throw] at h
  refine ⟨hnil, fun e he => ?_⟩
  cases hall : entries.zipIdx.forM fun e => checkEntry e.2 e.1 with
  | error err => simp [hnil, hall, bind, Except.bind] at h
  | ok u =>
    obtain ⟨i, hi, rfl⟩ := List.mem_iff_getElem.mp he
    exact entryChecked_of_checkEntry
      (forM_eq_ok_iff.mp hall (entries[i], i) (by simp [List.mem_zipIdx_iff_getElem?]))

theorem signRefresh_ok {tool : ToolEnv} {entries : List RefreshEntry} {nonceHex : String}
    {version : UInt64} {seed : Bytes} {signed : SignedRefresh}
    (h : signRefresh tool entries nonceHex version seed = .ok signed) :
    entries ≠ [] ∧ (∀ e ∈ entries, EntryChecked e) ∧
      ∃ nonce, hexDecodeExact 32 (trim nonceHex) = some nonce ∧
        tool.entriesToVec entries = some signed.entriesJson ∧
        signed.nonceHex = hexEncode nonce ∧ signed.version = version ∧
        signed.signatureHex = hexEncode
          (tool.ed25519Sign seed (signedMessage nonce version
            (tool.sha256 signed.entriesJson))) := by
  unfold signRefresh at h
  cases hvalid : validateEntries entries with
  | error e => simp [hvalid, bind, Except.bind] at h
  | ok u =>
    obtain ⟨hne, hchecked⟩ := validateEntries_ok hvalid
    refine ⟨hne, hchecked, ?_⟩
    by_cases hzero : version = 0
    · simp [hvalid, hzero, bind, Except.bind, throw, throwThe, MonadExceptOf.throw] at h
    simp only [hvalid, hzero, if_false, bind, Except.bind, pure, Except.pure] at h
    split at h
    · cases h
    rename_i nonce hnonce
    split at h
    · cases h
    rename_i json hjson
    cases h
    exact ⟨nonce, hnonce, hjson, rfl, rfl, rfl⟩

end PolicyCli

section

variable {tool : PolicyCli.ToolEnv} {env : Env} {seed nonce : Bytes}
  {entries : List PolicyCli.RefreshEntry} {nonceHex bakedHex : String} {version : UInt64}
  {signed : PolicyCli.SignedRefresh} {reg : Registry}

theorem entryChecked_iff {e : PolicyCli.RefreshEntry} (h : PolicyCli.EntryChecked e) :
    Registry.EntryChecked e.read ↔
      ∀ v ∈ e.allowedVenues, eqIgnoreAsciiCase v "data-signing" = true →
        e.customerId = "attested-data" := by
  constructor
  · intro hchecked v hv hdata
    have hx402 : eqIgnoreAsciiCase v "x402" = false := by
      rw [eqIgnoreAsciiCase, of_decide_eq_true hdata]
      decide
    exact (hchecked.reserved v hv "attested-data" (by simp [reservedVenueOwner, hx402, hdata])).symm
  · intro hdata
    refine ⟨h.customer_safe, h.venues_safe,
      fun v hv owner howner => ?_, by simp [PolicyCli.RefreshEntry.read]⟩
    unfold reservedVenueOwner at howner
    split at howner
    · rename_i hx402
      exact (Option.some.inj howner).symm.trans (h.reserved v hv hx402).symm
    · split at howner
      · rename_i hvenue
        exact (Option.some.inj howner).symm.trans (hdata v hv hvenue).symm
      · cases howner

/-- The enclave installs what the tool signed exactly if no entry grants the data-signing venue to
another customer than its owner. -/
theorem refresh_signed_iff (hlaws : PolicyCli.Laws tool env seed)
    (hsigned : PolicyCli.signRefresh tool entries nonceHex version seed = .ok signed)
    (hbaked : env.registryPubkey = some bakedHex)
    (hkey : hexDecodeExact 32 (trim bakedHex) = some (tool.ed25519PublicKey seed))
    (hnonce : hexDecodeExact 32 (trim nonceHex) = some nonce)
    (hpending : reg.pendingNonce = some nonce) (hversion : reg.version < version) :
    ((reg.refresh env signed.entriesJson signed.nonceHex signed.version signed.signatureHex).1 =
          .ok version ∧
        (reg.refresh env signed.entriesJson signed.nonceHex signed.version signed.signatureHex).2.entries =
          entries.map fun e =>
            { tokenHmac := Registry.tokenHmac env e.token, customerId := e.customerId
              allowedVenues := e.allowedVenues, mode := .active }) ↔
      ∀ e ∈ entries, ∀ v ∈ e.allowedVenues, eqIgnoreAsciiCase v "data-signing" = true →
        e.customerId = "attested-data" := by
  obtain ⟨hne, hchecked, nonce', hnonce', hjson, hnonceHex, rfl, hsignature⟩ :=
    PolicyCli.signRefresh_ok hsigned
  obtain rfl : nonce' = nonce := Option.some.inj (hnonce'.symm.trans hnonce)
  have hparsed := hlaws.round_trip entries _ hjson
  constructor
  · rintro ⟨hok, -⟩ e he
    -- a refresh that was accepted has checked every entry
    cases hvalid : reg.validate env signed.entriesJson signed.nonceHex signed.version signed.signatureHex with
    | error err => simp [Registry.refresh, hvalid] at hok
    | ok valid =>
      obtain ⟨nonce, checked⟩ := valid
      have hrefresh := Registry.validate_ok hvalid
      have hentries := Option.some.inj (hparsed.symm.trans hrefresh.parsed)
      exact (entryChecked_iff (hchecked e he)).mp
        (hrefresh.checked _ (hentries ▸ List.mem_map_of_mem he))
  · intro hdata
    have hvk : Registry.controlPlaneVk env = .ok (tool.ed25519PublicKey seed) := by
      simp [Registry.controlPlaneVk, hbaked, hkey, hlaws.publicKey_valid]
    have hnonceDecoded : hexDecodeExact 32 (trim signed.nonceHex) = some nonce' := by
      rw [hnonceHex, hexDecodeExact_trim_hexEncode, if_pos (length_of_hexDecodeExact hnonce)]
    have hsigDecoded : hexDecodeExact 64 (trim signed.signatureHex) =
        some (tool.ed25519Sign seed
          (PolicyCli.signedMessage nonce' signed.version (tool.sha256 signed.entriesJson))) := by
      rw [hsignature, hexDecodeExact_trim_hexEncode, if_pos (hlaws.length_sign _)]
    have hverify : env.ed25519Verify (tool.ed25519PublicKey seed)
        (Registry.signedMessage nonce' signed.version (env.sha256 signed.entriesJson))
        (tool.ed25519Sign seed
          (PolicyCli.signedMessage nonce' signed.version (tool.sha256 signed.entriesJson))) =
            true := by
      rw [← hlaws.sha256_eq]
      exact hlaws.verify_sign _
    rw [Registry.refresh_eq_ok hvk hnonceDecoded hpending hsigDecoded hverify hparsed
      (by simpa using hne) ?_ hversion]
    · refine ⟨rfl, ?_⟩
      simp [Registry.resident, PolicyCli.RefreshEntry.read]
    · intro e he
      obtain ⟨e', he', rfl⟩ := List.mem_map.mp he
      exact (entryChecked_iff (hchecked e' he')).mpr (hdata e' he')

end

/-! ### The golden vector -/

namespace Sample

def goldenSeed : Bytes := List.replicate 32 7

def goldenKey : Bytes :=
  beBytes 32 0xea4a6c63e29c520abef5507b132ec5f9954776aebebe7b92421eea691446d22c

def goldenNonce : Bytes := List.replicate 32 1

structure SignedRegistry where
  entries : List PolicyCli.RefreshEntry
  json : Bytes
  digest : Bytes
  signature : Bytes

def toolOf (rows : List SignedRegistry) : PolicyCli.ToolEnv where
  sha256 json := ((rows.find? fun row => row.json = json).map (·.digest)).getD []
  ed25519PublicKey _ := goldenKey
  ed25519Sign _ message :=
    ((rows.find? fun row => message = PolicyCli.signedMessage goldenNonce 1 row.digest).map
      (·.signature)).getD (List.replicate 64 0)
  entriesToVec entries := (rows.find? fun row => row.entries = entries).map (·.json)

def controlEnv (rows : List SignedRegistry) : Env :=
  { env bareBlob with
    registryPubkey := some (hexEncode goldenKey)
    sha256 := (toolOf rows).sha256
    ed25519Verify := fun key message sig =>
      key = goldenKey ∧ sig = (toolOf rows).ed25519Sign goldenSeed message
    entriesFromSlice := fun json => (rows.find? fun row => row.json = json).map fun row =>
      row.entries.map PolicyCli.RefreshEntry.read }

theorem toolOf_laws {rows : List SignedRegistry} (hjson : (rows.map (·.json)).Nodup)
    (hsignature : ∀ row ∈ rows, row.signature.length = 64) :
    PolicyCli.Laws (toolOf rows) (controlEnv rows) goldenSeed where
  sha256_eq := rfl
  publicKey_valid := rfl
  length_sign message := by
    simp only [toolOf]
    cases hfind : rows.find? fun row =>
      message = PolicyCli.signedMessage goldenNonce 1 row.digest with
    | none => rfl
    | some row => exact hsignature row (List.mem_of_find?_eq_some hfind)
  verify_sign message := decide_eq_true ⟨rfl, rfl⟩
  round_trip entries json h := by
    obtain ⟨row, hfind, rfl⟩ := Option.map_eq_some_iff.mp h
    have hrow := List.mem_of_find?_eq_some hfind
    obtain rfl : row.entries = entries := by simpa using List.find?_some hfind
    cases hread : rows.find? fun other => other.json = row.json with
    | none => exact absurd (List.find?_eq_none.mp hread row hrow) (by simp)
    | some other =>
      have hsame : other = row := List.inj_on_of_nodup_map hjson
          (List.mem_of_find?_eq_some hread) hrow
        (by simpa using List.find?_some hread)
      simp [controlEnv, hread, hsame]

def goldenEntry (venues : List String) : PolicyCli.RefreshEntry :=
  { token := "tok-a", customerId := "cust-a", allowedVenues := venues }

def goldenRegistry : SignedRegistry where
  entries := [goldenEntry ["binance", "okx"]]
  json := bytes ("[\x7b\"token\":\"tok-a\",\"customer_id\":\"cust-a\"," ++
    "\"allowed_venues\":[\"binance\",\"okx\"]\x7d]")
  digest := beBytes 32 0x4c3acd5004975c7d13e21b041831c70c04ae45440d14627bccc7d5dd6d46d454
  signature :=
    beBytes 32 0x3bd8bf339dfd0a188bbaad55c2d3fb7b4157ad8dbef027447f8bc726eb887ec5 ++
      beBytes 32 0xafc155801548086a9f6b5ce0adc2e35420a5867e6a618aeb669560b2e185b101

def dataSigningRegistry : SignedRegistry where
  entries := [goldenEntry ["data-signing"]]
  json := bytes ("[\x7b\"token\":\"tok-a\",\"customer_id\":\"cust-a\"," ++
    "\"allowed_venues\":[\"data-signing\"]\x7d]")
  digest := beBytes 32 0x0c7d973cc4847476ea1c345e1514a9a96582cbf3a2e8e54f1d251369cda6f013
  signature :=
    beBytes 32 0x41d82b7054270b28d7e4814998d92343dc86434dfca5374cfe31dbca69a3ffd5 ++
      beBytes 32 0x14f7971128754efde6735959dc93cecdcaca5b29d179a864644d69e62900ea05

def challenged : Registry := { pendingNonce := some goldenNonce }

def goldenNonceHex : String := hexEncode goldenNonce

theorem decode_goldenNonceHex : hexDecodeExact 32 (trim goldenNonceHex) =
    some goldenNonce :=
  hexDecodeExact_trim_hexEncode 32 goldenNonce

def SignedRegistry.signed (row : SignedRegistry) : PolicyCli.SignedRefresh where
  entriesJson := row.json
  contentHashHex := hexEncode row.digest
  nonceHex := goldenNonceHex
  version := 1
  signatureHex := hexEncode row.signature

variable {row : SignedRegistry}

theorem signRefresh_toolOf (row : SignedRegistry)
    (hvalid : PolicyCli.validateEntries row.entries = .ok ()) :
    PolicyCli.signRefresh (toolOf [row]) row.entries goldenNonceHex 1 goldenSeed =
      .ok row.signed := by
  simp [PolicyCli.signRefresh, hvalid, decode_goldenNonceHex, toolOf, SignedRegistry.signed, bind,
    Except.bind, pure, Except.pure]
  rfl

theorem validate_controlEnv (hsignature : row.signature.length = 64) (hne : row.entries ≠ []) :
    challenged.validate (controlEnv [row]) row.json goldenNonceHex 1 row.signed.signatureHex =
      ((row.entries.map PolicyCli.RefreshEntry.read).mapM Registry.checkEntry).map fun _ =>
        (goldenNonce, row.entries.map PolicyCli.RefreshEntry.read) := by
  have hkey : Registry.controlPlaneVk (controlEnv [row]) = .ok goldenKey := by
    simp only [Registry.controlPlaneVk, controlEnv, hexDecodeExact_trim_hexEncode,
      show goldenKey.length = 32 from rfl]
    rfl
  have hsig : hexDecodeExact 64 (trim row.signed.signatureHex) = some row.signature := by
    rw [SignedRegistry.signed, hexDecodeExact_trim_hexEncode, if_pos hsignature]
  refine Registry.validate_eq_mapM hkey decode_goldenNonceHex rfl hsig ?_ ?_ (by simpa using hne)
  · simp [controlEnv, toolOf, Registry.signedMessage, PolicyCli.signedMessage]
  · simp [controlEnv]

theorem refresh_controlEnv (row : SignedRegistry) (hsignature : row.signature.length = 64)
    (hne : row.entries ≠ [])
    (hchecked : ∃ u, (row.entries.map PolicyCli.RefreshEntry.read).mapM Registry.checkEntry =
      .ok u) :
    ∃ reg', challenged.refresh (controlEnv
      [row]) row.json goldenNonceHex 1 row.signed.signatureHex =
        (.ok 1, reg') ∧
      reg'.entries = (row.entries.map PolicyCli.RefreshEntry.read).map
        (Registry.resident (controlEnv [row])) := by
  obtain ⟨u, hu⟩ := hchecked
  exact ⟨_, by rw [Registry.refresh, validate_controlEnv hsignature hne, hu]; rfl, rfl⟩

end Sample

/-- The tool signs a registry that grants the data-signing venue to a tenant, and the enclave
refuses it. -/
theorem refresh_signed_reserved :
    PolicyCli.signRefresh (Sample.toolOf
      [Sample.dataSigningRegistry]) Sample.dataSigningRegistry.entries
        Sample.goldenNonceHex 1 Sample.goldenSeed =
      .ok Sample.dataSigningRegistry.signed ∧
    (Sample.challenged.refresh (Sample.controlEnv [Sample.dataSigningRegistry])
        Sample.dataSigningRegistry.json Sample.goldenNonceHex 1
        Sample.dataSigningRegistry.signed.signatureHex).1 = .error .reservedVenue := by
  refine ⟨Sample.signRefresh_toolOf _ (by decide +kernel), ?_⟩
  have hchecked : (Sample.dataSigningRegistry.entries.map PolicyCli.RefreshEntry.read).mapM
      Registry.checkEntry = .error .reservedVenue := by
    decide +kernel
  rw [Registry.refresh, Sample.validate_controlEnv rfl (by decide), hchecked]
  rfl

/-- The golden vector is signed and installed. -/
theorem refresh_signed_golden :
    ∃ signed, PolicyCli.signRefresh
      (Sample.toolOf [Sample.goldenRegistry]) Sample.goldenRegistry.entries
        Sample.goldenNonceHex 1 Sample.goldenSeed = .ok signed ∧
      (Sample.challenged.refresh (Sample.controlEnv [Sample.goldenRegistry]) signed.entriesJson
        signed.nonceHex signed.version signed.signatureHex).1 = .ok 1 := by
  have hsigned := Sample.signRefresh_toolOf Sample.goldenRegistry (by decide +kernel)
  refine ⟨_, hsigned, ?_⟩
  refine ((refresh_signed_iff (Sample.toolOf_laws (by simp) (by simp; rfl)) hsigned rfl ?_
    Sample.decode_goldenNonceHex rfl (by decide)).mpr (by decide +kernel)).1
  exact hexDecodeExact_trim_hexEncode 32 Sample.goldenKey

end Signer
