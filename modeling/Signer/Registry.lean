import Signer.CanonicalJson
import Signer.Service.Proc

/-!
# The tenant registry

Tokens resolve to identities through a registry that the control plane signs. A refresh is checked
against the challenge nonce of this enclave and the version installed last. It takes two critical
sections: it checks the request against the pending nonce, and later installs the entries and clears
the nonce if it is still the one that was checked.
-/

namespace Signer

open Text

inductive TenantMode where
  | active
  | cancelOnly
  | halted
  deriving DecidableEq, Repr

def TenantMode.parse : String → Option TenantMode
  | "active" => some .active
  | "cancel_only" => some .cancelOnly
  | "halted" => some .halted
  | _ => none

def TenantMode.asStr : TenantMode → String
  | active => "active"
  | cancelOnly => "cancel_only"
  | halted => "halted"

structure ResolvedIdentity where
  customerId : String
  allowedVenues : List String
  mode : TenantMode
  deriving DecidableEq, Repr

def keyVersion : Nat := 1

namespace ResolvedIdentity

/-- `ResolvedIdentity::entry_hash`: the digest of the caller's own entry. -/
def entryHash (env : Env) (id : ResolvedIdentity) : Option String :=
  (canonicalV1 (.object
    [("customer_id", .string id.customerId),
      ("allowed_venues", .array ((id.allowedVenues.insertionSort (· ≤ ·)).map .string)),
      ("mode", .string id.mode.asStr)])).map fun canonical =>
    hexEncode (env.sha256 canonical)

def venueAllowed (id : ResolvedIdentity) (venue : String) : Bool := venue ∈ id.allowedVenues

def encryptionContext (id : ResolvedIdentity) (venue : String) : EncryptionContext :=
  { customerId := id.customerId, venueId := venue }

def sealedAad (id : ResolvedIdentity) (venue : String) (version : Nat) : Bytes :=
  bytes ("customer_id=" ++ id.customerId ++ "\nvenue_id=" ++ venue ++ "\nkey_version=" ++
    version.repr)

def forDataSigning : ResolvedIdentity :=
  { customerId := "attested-data", allowedVenues := ["data-signing"], mode := .active }

def forProvisionedAgent (customerId venue : String) : ResolvedIdentity :=
  { customerId, allowedVenues := [venue], mode := .active }

end ResolvedIdentity

structure TenantEntry where
  tokenHmac : Bytes
  customerId : String
  allowedVenues : List String
  mode : TenantMode
  deriving DecidableEq, Repr

structure Registry where
  entries : List TenantEntry := []
  version : UInt64 := 0
  pendingNonce : Option Bytes := none
  deriving DecidableEq, Repr

inductive RegistryError where
  | noPubkey | badPubkey | noPendingNonce | nonceMismatch | badNonceHex | badSignature
  | signatureInvalid | contentHashMismatch
  | nonMonotonicVersion (got maxKnown : UInt64)
  | empty | malformedEntries | unsafeId | reservedVenue | badMode
  deriving DecidableEq, Repr

def RegistryError.wireCode : RegistryError → ErrCode
  | noPendingNonce | nonceMismatch | badNonceHex => .registryNonceRejected
  | noPubkey | badPubkey | badSignature | signatureInvalid | contentHashMismatch =>
    .registrySignatureRejected
  | malformedEntries | empty | unsafeId | reservedVenue | badMode => .registryEntriesRejected
  | nonMonotonicVersion _ _ => .registryVersionRejected

/-- `is_safe_id`: ids that cannot shift a field boundary. -/
def isSafeId (s : String) : Bool :=
  s ≠ "" ∧ s.utf8ByteSize ≤ 64 ∧
    s.toList.all fun c => isAsciiAlphanumeric c ∨ c = '-' ∨ c = '_'

def x402CustomerId : String := "x402-00000000-0000-0000-0000-0000000x402"

/-- `reserved_venue_owner`: venues only one identity may be granted. -/
def reservedVenueOwner (venue : String) : Option String :=
  if eqIgnoreAsciiCase venue "x402" then some x402CustomerId
  else if eqIgnoreAsciiCase venue "data-signing" then some "attested-data"
  else none

def grantsReservedVenueToNonReserved (customerId : String) (allowedVenues : List String) : Bool :=
  allowedVenues.any fun venue =>
    match reservedVenueOwner venue with
    | some owner => owner ≠ customerId
    | none => false

namespace Registry

def tokenHmac (env : Env) (token : String) : Bytes :=
  env.hmacSha256 env.registryKey (bytes token)

def controlPlaneVk (env : Env) : Except RegistryError Bytes :=
  match env.registryPubkey with
  | none => .error .noPubkey
  | some hex =>
    match hexDecodeExact 32 (trim hex) with
    | none => .error .badPubkey
    | some key => if env.ed25519KeyValid key then .ok key else .error .badPubkey

/-- `signed_message`: what the control plane signs. -/
def signedMessage (nonce : Bytes) (version : UInt64) (contentHash : Bytes) : Bytes :=
  nonce ++ leBytes 8 version.toNat ++ contentHash

def checkEntry (e : RefreshEntry) : Except RegistryError Unit :=
  if !isSafeId e.customerId || e.allowedVenues.any fun v => !isSafeId v then .error .unsafeId
  else if grantsReservedVenueToNonReserved e.customerId e.allowedVenues then .error .reservedVenue
  else if e.mode.any fun m => (TenantMode.parse m).isNone then .error .badMode
  else .ok ()

/-- The first section of `refresh`: nonce, signature and entries, in that order. -/
def validate (env : Env) (reg : Registry) (entriesJson : Bytes) (nonceHex : String)
    (version : UInt64) (signatureHex : String) : Except RegistryError (Bytes × List RefreshEntry) :=
  match controlPlaneVk env with
  | .error e => .error e
  | .ok key =>
    match hexDecodeExact 32 (trim nonceHex) with
    | none => .error .badNonceHex
    | some nonce =>
      match reg.pendingNonce with
      | none => .error .noPendingNonce
      | some issued =>
        if issued ≠ nonce then .error .nonceMismatch
        else
          match hexDecodeExact 64 (trim signatureHex) with
          | none => .error .badSignature
          | some sig =>
            if !env.ed25519Verify key (signedMessage nonce version
              (env.sha256 entriesJson)) sig then
              .error .signatureInvalid
            else
              match env.entriesFromSlice entriesJson with
              | none => .error .malformedEntries
              | some [] => .error .empty
              | some entries =>
                match entries.mapM checkEntry with
                | .error e => .error e
                | .ok _ => .ok (nonce, entries)

def resident (env : Env) (e : RefreshEntry) : TenantEntry where
  tokenHmac := tokenHmac env e.token
  customerId := e.customerId
  allowedVenues := e.allowedVenues
  mode := (e.mode.bind TenantMode.parse).getD .active

/-- The second section of `refresh`: version check, install, compare-and-clear. -/
def install (env : Env) (reg : Registry) (nonce : Bytes) (entries : List RefreshEntry)
    (version : UInt64) : Except RegistryError UInt64 × Registry :=
  if version ≤ reg.version then (.error (.nonMonotonicVersion version reg.version), reg)
  else
    (.ok version,
      { entries := entries.map (resident env)
        version
        pendingNonce := if reg.pendingNonce = some nonce then none else reg.pendingNonce })

/-- `refresh`, both sections without another request between them. -/
def refresh (env : Env) (reg : Registry) (entriesJson : Bytes) (nonceHex : String)
    (version : UInt64) (signatureHex : String) : Except RegistryError UInt64 × Registry :=
  match validate env reg entriesJson nonceHex version signatureHex with
  | .error e => (.error e, reg)
  | .ok (nonce, entries) => install env reg nonce entries version

/-- `challenge`: open a new challenge. -/
def challenge (reg : Registry) (nonce : Bytes) : String × Registry :=
  (hexEncode nonce, { reg with pendingNonce := some nonce })

/-- `resolve`: the last entry whose token hash matches. -/
def resolve (env : Env) (reg : Registry) (token : String) : Option ResolvedIdentity :=
  (reg.entries.reverse.find? fun e => e.tokenHmac = tokenHmac env token).map fun e =>
    { customerId := e.customerId, allowedVenues := e.allowedVenues, mode := e.mode }

/-! ### What the sections of a refresh check and change -/

structure EntryChecked (e : RefreshEntry) : Prop where
  customer_safe : isSafeId e.customerId = true
  venues_safe : ∀ v ∈ e.allowedVenues, isSafeId v = true
  reserved : ∀ v ∈ e.allowedVenues, ∀ owner, reservedVenueOwner v = some owner →
    owner = e.customerId
  mode_known : ∀ m, e.mode = some m → (TenantMode.parse m).isSome = true

theorem grantsReservedVenueToNonReserved_eq_false {customerId : String} {venues : List String} :
    grantsReservedVenueToNonReserved customerId venues = false ↔
      ∀ v ∈ venues, ∀ owner, reservedVenueOwner v = some owner → owner = customerId := by
  rw [grantsReservedVenueToNonReserved, List.any_eq_false]
  refine forall₂_congr fun v _ => ?_
  cases reservedVenueOwner v <;> simp

theorem checkEntry_ok_iff {e : RefreshEntry} : checkEntry e = .ok () ↔ EntryChecked e := by
  have hmode : (e.mode.any fun m => (TenantMode.parse m).isNone) = false ↔
      ∀ m, e.mode = some m → (TenantMode.parse m).isSome = true := by
    cases e.mode <;> simp
  simp only [checkEntry, ite_error_eq_ok, Bool.not_eq_true, Bool.or_eq_false_iff,
    Bool.not_eq_false', List.any_eq_false, and_true, hmode,
    grantsReservedVenueToNonReserved_eq_false]
  constructor
  · rintro ⟨⟨hcustomer, hvenues⟩, hreserved, hmode⟩
    exact ⟨hcustomer, by simpa using hvenues, hreserved, hmode⟩
  · rintro ⟨hcustomer, hvenues, hreserved, hmode⟩
    exact ⟨⟨hcustomer, by simpa using hvenues⟩, hreserved, hmode⟩

variable {entries : List RefreshEntry}

theorem mapM_checkEntry_ok_iff :
    (∃ us, entries.mapM checkEntry = .ok us) ↔ ∀ e ∈ entries, EntryChecked e := by
  induction entries with
  | nil => simp [pure, Except.pure]
  | cons e entries ih =>
    rw [List.mapM_cons, List.forall_mem_cons, ← ih, ← checkEntry_ok_iff]
    cases he : checkEntry e with
    | error err => simp [bind, Except.bind]
    | ok u => cases hrest : entries.mapM checkEntry <;> simp [bind, Except.bind, pure, Except.pure]

structure RefreshChecked (env : Env) (reg : Registry) (entriesJson : Bytes) (nonceHex : String)
    (version : UInt64) (nonce : Bytes) (entries : List RefreshEntry) : Prop where
  nonce_eq : hexDecodeExact 32 (trim nonceHex) = some nonce
  pending : reg.pendingNonce = some nonce
  signed : ∃ key sig, controlPlaneVk env = .ok key ∧
    env.ed25519Verify key (signedMessage nonce version (env.sha256 entriesJson)) sig = true
  parsed : env.entriesFromSlice entriesJson = some entries
  checked : ∀ e ∈ entries, EntryChecked e

variable {env : Env}

theorem validate_ok {reg : Registry} {entriesJson nonce : Bytes}
    {nonceHex signatureHex : String} {version : UInt64}
    (h : validate env reg entriesJson nonceHex version signatureHex = .ok (nonce, entries)) :
    RefreshChecked env reg entriesJson nonceHex version nonce entries := by
  unfold validate at h
  split at h
  · cases h
  rename_i key hkey
  split at h
  · cases h
  rename_i nonce' hnonce
  split at h
  · cases h
  rename_i issued hpending
  split at h
  · cases h
  rename_i hissued
  split at h
  · cases h
  rename_i sig hsig
  split at h
  · cases h
  rename_i hverify
  split at h
  · cases h
  · cases h
  rename_i entries' _ hparsed
  split at h
  · cases h
  rename_i us hchecked
  obtain ⟨rfl, rfl⟩ := Prod.mk.inj (Except.ok.inj h)
  exact ⟨hnonce, not_not.mp hissued ▸ hpending, ⟨key, sig, hkey, by simpa using hverify⟩, hparsed,
    mapM_checkEntry_ok_iff.mp ⟨us, hchecked⟩⟩

theorem install_ok {reg reg' : Registry} {nonce : Bytes}
    {version v : UInt64} (h : install env reg nonce entries version = (.ok v, reg')) :
    v = version ∧ reg.version < version ∧
      reg' = { entries := entries.map (resident env), version,
               pendingNonce := if reg.pendingNonce =
                 some nonce then none else reg.pendingNonce } := by
  unfold install at h
  split at h
  · cases h
  rename_i hlt
  obtain ⟨hv, rfl⟩ := Prod.mk.inj h
  exact ⟨(Except.ok.inj hv).symm, UInt64.not_le.mp hlt, rfl⟩

theorem install_error {reg reg' : Registry} {nonce : Bytes} {version : UInt64} {e : RegistryError}
    (h : install env reg nonce entries version = (.error e, reg')) : reg' = reg := by
  unfold install at h
  split at h
  · exact (Prod.mk.inj h).2.symm
  · cases h

section

variable {env : Env} {reg : Registry} {entriesJson nonce key sig : Bytes}
  {nonceHex signatureHex : String} {version : UInt64} {entries : List RefreshEntry}
  (hkey : controlPlaneVk env = .ok key)
  (hnonce : hexDecodeExact 32 (trim nonceHex) = some nonce)
  (hpending : reg.pendingNonce = some nonce)
  (hsig : hexDecodeExact 64 (trim signatureHex) = some sig)
  (hverify : env.ed25519Verify key (signedMessage nonce version (env.sha256 entriesJson)) sig =
    true)
  (hparsed : env.entriesFromSlice entriesJson = some entries) (hne : entries ≠ [])

include hkey hnonce hpending hsig hverify hparsed hne

theorem validate_eq_mapM :
    reg.validate env entriesJson nonceHex version signatureHex =
      (entries.mapM checkEntry).map fun _ => (nonce, entries) := by
  obtain ⟨e, rest, rfl⟩ := List.exists_cons_of_ne_nil hne
  simp only [validate, hkey, hnonce, hpending, hsig, hverify, hparsed, ne_eq, not_true_eq_false,
    if_false, Bool.not_true, Bool.false_eq_true]
  cases (e :: rest).mapM checkEntry <;> rfl

theorem refresh_eq_ok (hchecked : ∀ e ∈ entries, EntryChecked e)
    (hversion : reg.version < version) :
    reg.refresh env entriesJson nonceHex version signatureHex =
      (.ok version, { entries := entries.map (resident env), version, pendingNonce := none }) := by
  obtain ⟨us, hus⟩ := mapM_checkEntry_ok_iff.mpr hchecked
  rw [refresh, validate_eq_mapM hkey hnonce hpending hsig hverify hparsed hne, hus]
  simp [Except.map, install, hpending, UInt64.not_le.mpr hversion]

end

end Registry

end Signer
