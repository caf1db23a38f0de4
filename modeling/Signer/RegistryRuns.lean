import Signer.Sample
import Signer.Service.Interleaving
import Signer.Text.Hex

/-!
# The registry under concurrency

Challenges, refreshes and lookups run concurrently. A challenge and a lookup take one section. A
refresh takes two: it checks the request against the pending nonce, and later installs the entries.
Installing holds the write lock of the registry while it compares and clears the nonce, so it is one
section for everyone who reads the registry.
-/

namespace Signer

open Text

inductive RegistryCall where
  | challenge (nonce : Bytes)
  | refresh (entriesJson : Bytes) (nonceHex : String) (version : UInt64) (signatureHex : String)
  | resolve (token : String)

inductive RegistryProgress where
  | started
  | checked (nonce : Bytes) (entries : List RefreshEntry)
  | finished

inductive RegistryOutput where
  | challenged (nonceHex : String)
  | checked
  | installed (version : UInt64)
  | refused (e : RegistryError)
  | resolved (identity : Option ResolvedIdentity)
  | idle
  deriving DecidableEq

def registrySection (env : Env) (call : RegistryCall) (progress : RegistryProgress)
    (reg : Registry) : RegistryOutput × RegistryProgress × Registry :=
  match progress, call with
  | .started, .challenge nonce =>
    let opened := reg.challenge nonce
    (.challenged opened.1, .finished, opened.2)
  | .started, .resolve token => (.resolved (reg.resolve env token), .finished, reg)
  | .started, .refresh entriesJson nonceHex version signatureHex =>
    match reg.validate env entriesJson nonceHex version signatureHex with
    | .error e => (.refused e, .finished, reg)
    | .ok (nonce, entries) => (.checked, .checked nonce entries, reg)
  | .checked nonce entries, .refresh _ _ version _ =>
    match reg.install env nonce entries version with
    | (.error e, reg) => (.refused e, .finished, reg)
    | (.ok version, reg) => (.installed version, .finished, reg)
  | _, _ => (.idle, .finished, reg)

abbrev RegistrySystem := Interleaving.System Registry RegistryProgress

def RegistrySystem.boot : RegistrySystem := { shared := {}, progress := fun _ => .started }

abbrev RegistryStep := Run.Step ℕ RegistrySystem RegistryOutput

def registrySteps (env : Env) (calls : ℕ → RegistryCall) (schedule : List ℕ) :
    List RegistryStep :=
  Run.steps (Interleaving.step fun i => registrySection env (calls i)) .boot schedule

/-! ### What a section does -/

inductive RegistryMove (env : Env) (call : RegistryCall) (reg : Registry) :
    RegistryProgress → RegistryOutput → RegistryProgress → Registry → Prop
  | challenged {nonce : Bytes} (hcall : call = .challenge nonce) :
    RegistryMove env call reg .started (.challenged (hexEncode nonce)) .finished
      { reg with pendingNonce := some nonce }
  | checked {entriesJson nonce : Bytes} {nonceHex signatureHex : String} {version : UInt64}
      {entries : List RefreshEntry}
      (hcall : call = .refresh entriesJson nonceHex version signatureHex)
      (hchecked : Registry.RefreshChecked env reg entriesJson nonceHex version nonce entries) :
    RegistryMove env call reg .started .checked (.checked nonce entries) reg
  | installed {entriesJson nonce : Bytes} {nonceHex signatureHex : String} {version : UInt64}
      {entries : List RefreshEntry}
      (hcall : call = .refresh entriesJson nonceHex version signatureHex)
      (hversion : reg.version < version) :
    RegistryMove env call reg (.checked nonce entries) (.installed version) .finished
      { entries := entries.map (Registry.resident env), version,
        pendingNonce := if reg.pendingNonce = some nonce then none else reg.pendingNonce }
  | quiet {progress : RegistryProgress} {output : RegistryOutput}
      (hquiet : ∀ v, output ≠ .installed v) :
    RegistryMove env call reg progress output .finished reg

variable {call : RegistryCall} {reg reg' : Registry} {progress progress' : RegistryProgress}
  {entriesJson : Bytes} {nonceHex signatureHex : String}

theorem registryMove_of_section {env : Env} {output : RegistryOutput}
    (h : registrySection env call progress reg = (output, progress', reg')) :
    RegistryMove env call reg progress output progress' reg' := by
  unfold registrySection at h
  split at h
  · cases h
    exact .challenged rfl
  · cases h
    exact .quiet (by simp)
  · split at h <;> cases h
    · exact .quiet (by simp)
    · rename_i hvalidate
      exact .checked rfl (Registry.validate_ok hvalidate)
  · split at h <;> cases h
    · rename_i hinstall
      rw [Registry.install_error hinstall]
      exact .quiet (by simp)
    · rename_i hinstall
      obtain ⟨rfl, hversion, rfl⟩ := Registry.install_ok hinstall
      exact .installed rfl hversion
  · cases h
    exact .quiet (by simp)

variable {nonce : Bytes}

theorem section_check {env : Env} {version : UInt64} {entries : List RefreshEntry}
    (h : reg.validate env entriesJson nonceHex version signatureHex = .ok (nonce, entries)) :
    registrySection env (.refresh entriesJson nonceHex version signatureHex) .started reg =
      (.checked, .checked nonce entries, reg) := by
  simp only [registrySection, h]

theorem section_install {env : Env} {version : UInt64} {entries : List RefreshEntry}
    (h : reg.version < version) :
    registrySection env (.refresh entriesJson nonceHex version signatureHex)
      (.checked nonce entries) reg =
      (.installed version, .finished,
        { entries := entries.map (Registry.resident env), version,
          pendingNonce := if reg.pendingNonce = some nonce then none else reg.pendingNonce }) := by
  simp only [registrySection, Registry.install, if_neg (UInt64.not_le.mpr h)]

theorem refresh_ok_iff_sections {env : Env} {version v : UInt64} :
    reg.refresh env entriesJson nonceHex version signatureHex = (.ok v, reg') ↔
      ∃ nonce entries,
        registrySection env (.refresh entriesJson nonceHex version signatureHex) .started reg =
          (.checked, .checked nonce entries, reg) ∧
        registrySection env (.refresh entriesJson nonceHex version signatureHex)
          (.checked nonce entries) reg = (.installed v, .finished, reg') := by
  simp only [Registry.refresh, registrySection]
  cases hvalidate : reg.validate env entriesJson nonceHex version signatureHex with
  | error e => simp
  | ok passed =>
    obtain ⟨nonce, entries⟩ := passed
    rcases hinstall : reg.install env nonce entries version with ⟨_ | v', reg''⟩
    · simp [hinstall]
    · simp [hinstall]

/-! ### What holds along every schedule -/

def RegistryOutput.version? : RegistryOutput → Option UInt64
  | .installed v => some v
  | _ => none

def installedVersions (steps : List RegistryStep) : List UInt64 :=
  steps.filterMap fun step => step.output.version?

structure SignedEntries (env : Env) (version : UInt64) (contentHash : Bytes)
    (entries : List TenantEntry) : Prop where
  signed : ∃ key nonce sig, Registry.controlPlaneVk env = .ok key ∧
    env.ed25519Verify key (Registry.signedMessage nonce version contentHash) sig = true
  content : ∃ bytes, env.sha256 bytes = contentHash
  parsed : ∀ bytes, env.sha256 bytes = contentHash → ∃ parsed,
    env.entriesFromSlice bytes = some parsed ∧ entries = parsed.map (Registry.resident env) ∧
      ∀ r ∈ parsed, ∀ m, r.mode = some m → TenantMode.parse m = some (Registry.resident env r).mode

/-- Safe ids, reserved venues with their owners, and entries that the control plane signed. -/
structure RegistrySound (env : Env) (reg : Registry) : Prop where
  ids_safe : ∀ e ∈ reg.entries,
    isSafeId e.customerId = true ∧ ∀ v ∈ e.allowedVenues, isSafeId v = true
  reserved : ∀ e ∈ reg.entries, ∀ v ∈ e.allowedVenues, ∀ owner,
    reservedVenueOwner v = some owner → e.customerId = owner
  mode_known : ∀ e ∈ reg.entries, e.mode ∈ [.active, .cancelOnly, .halted]
  origin : reg.version = 0 ∧ reg.entries = [] ∨
    ∃ contentHash, SignedEntries env reg.version contentHash reg.entries

def PassedChecks (env : Env) (call : RegistryCall) : RegistryProgress → Prop
  | .checked nonce entries => ∃ entriesJson nonceHex version signatureHex reg,
      call = .refresh entriesJson nonceHex version signatureHex ∧
      Registry.RefreshChecked env reg entriesJson nonceHex version nonce entries
  | _ => True

section

variable {env : Env} {calls : ℕ → RegistryCall} {i : ℕ} {sys sys' : RegistrySystem}
  {output : RegistryOutput}

theorem registrySound_of_installed (hsha : Function.Injective env.sha256)
    {version : UInt64} {entries : List RefreshEntry} {pending : Option Bytes}
    (h : Registry.RefreshChecked env reg entriesJson nonceHex version nonce entries) :
    RegistrySound env
      { entries := entries.map (Registry.resident env), version, pendingNonce := pending } := by
  have hchecked : ∀ e ∈ entries.map (Registry.resident env), ∃ r ∈ entries,
      Registry.EntryChecked r ∧ e = Registry.resident env r := by
    intro e he
    obtain ⟨r, hr, rfl⟩ := List.mem_map.mp he
    exact ⟨r, hr, h.checked r hr, rfl⟩
  refine ⟨fun e he => ?_, fun e he => ?_, fun e he => ?_, .inr ⟨env.sha256 entriesJson, ?_⟩⟩
  · obtain ⟨r, -, hr, rfl⟩ := hchecked e he
    exact ⟨hr.customer_safe, hr.venues_safe⟩
  · obtain ⟨r, -, hr, rfl⟩ := hchecked e he
    exact fun v hv owner howner => (hr.reserved v hv owner howner).symm
  · cases e.mode <;> simp
  · obtain ⟨key, sig, hkey, hverify⟩ := h.signed
    refine ⟨⟨key, nonce, sig, hkey, hverify⟩, ⟨entriesJson, rfl⟩, fun bytes hbytes => ?_⟩
    refine ⟨entries, hsha hbytes ▸ h.parsed, rfl, fun r hr m hm => ?_⟩
    obtain ⟨mode, hmode⟩ := Option.isSome_iff_exists.mp ((h.checked r hr).mode_known m hm)
    simp only [Registry.resident, hm, Option.bind_some, hmode, Option.getD_some]

variable (hsha : Function.Injective env.sha256)
  (h : Interleaving.step (fun i => registrySection env (calls i)) i sys = (output, sys'))

include h

theorem registryMove_of_step :
    RegistryMove env (calls i) sys.shared (sys.progress i) output (sys'.progress i) sys'.shared :=
  registryMove_of_section (Interleaving.step_eq h).1

include hsha in
theorem registrySound_step (hsound : RegistrySound env sys.shared)
    (hpassed : ∀ j, PassedChecks env (calls j) (sys.progress j)) :
    RegistrySound env sys'.shared ∧ ∀ j, PassedChecks env (calls j) (sys'.progress j) := by
  have hmove := registryMove_of_step h
  have hown := hpassed i
  have hkeeps : PassedChecks env (calls i) (sys'.progress i) →
      ∀ j, PassedChecks env (calls j) (sys'.progress j) :=
    fun hself => Interleaving.step_keeps (fun j progress _ => PassedChecks env (calls j) progress)
      h hpassed hself fun j _ hj => hj
  generalize sys.progress i = progress, sys'.progress i = progress', sys'.shared = reg' at *
  cases hmove with
  | challenged hcall =>
    exact ⟨⟨hsound.ids_safe, hsound.reserved, hsound.mode_known, hsound.origin⟩, hkeeps trivial⟩
  | checked hcall hchecked =>
    exact ⟨hsound, hkeeps ⟨_, _, _, _, _, hcall, hchecked⟩⟩
  | installed hcall hversion =>
    obtain ⟨_, _, _, _, reg, hcall', hchecked⟩ := hown
    obtain ⟨rfl, rfl, rfl, rfl⟩ := RegistryCall.refresh.inj (hcall.symm.trans hcall')
    exact ⟨registrySound_of_installed hsha hchecked, hkeeps trivial⟩
  | quiet hquiet => exact ⟨hsound, hkeeps trivial⟩

theorem version_step :
    (∃ v, output = .installed v ∧ sys.shared.version < v ∧ sys'.shared.version = v) ∨
      (∀ v, output ≠ .installed v) ∧ sys'.shared.entries = sys.shared.entries ∧
        sys'.shared.version = sys.shared.version := by
  have hmove := registryMove_of_step h
  generalize sys.progress i = progress, sys'.progress i = progress', sys'.shared = reg' at hmove ⊢
  cases hmove with
  | challenged hcall => exact .inr ⟨by simp, rfl, rfl⟩
  | checked hcall hchecked => exact .inr ⟨by simp, rfl, rfl⟩
  | installed hcall hversion => exact .inl ⟨_, rfl, hversion, rfl⟩
  | quiet hquiet => exact .inr ⟨hquiet, rfl, rfl⟩

omit h

theorem version?_eq_none (h : ∀ v, output ≠ .installed v) : output.version? = none := by
  cases output with
  | installed v => exact absurd rfl (h v)
  | _ => rfl

theorem pairwise_installedVersions (schedule : List ℕ) :
    (sys.shared.version :: installedVersions
      (Run.steps (Interleaving.step fun i => registrySection env (calls i)) sys schedule)).Pairwise
        (· < ·) := by
  induction schedule generalizing sys with
  | nil => simp [Run.steps, installedVersions]
  | cons i schedule ih =>
    rcases hstep : Interleaving.step (fun i => registrySection env (calls i)) i sys with
      ⟨output, sys'⟩
    have hrest := @ih sys'
    simp only [Run.steps, installedVersions, List.filterMap_cons, hstep] at hrest ⊢
    rcases version_step hstep with ⟨v, rfl, hlt, rfl⟩ | ⟨hquiet, -, hsame⟩
    · refine List.pairwise_cons.mpr ⟨?_, hrest⟩
      intro w hw
      rcases List.mem_cons.mp hw with rfl | hw
      · exact hlt
      · exact UInt64.lt_trans hlt ((List.pairwise_cons.mp hrest).1 w hw)
    · rw [version?_eq_none hquiet, ← hsame]
      exact hrest

theorem version_before_of_steps {schedule : List ℕ} {before after : List RegistryStep}
    {step : RegistryStep}
    (h : Run.steps (Interleaving.step fun i => registrySection env (calls i)) sys schedule =
      before ++ step :: after) :
    step.before.shared.version = (installedVersions before).getLastD sys.shared.version := by
  refine (Run.invariant_history (H := fun before s => s.shared.version =
    (installedVersions before).getLastD sys.shared.version) rfl ?_ h).1
  intro before step hmem hbefore
  rw [installedVersions, List.filterMap_append, List.filterMap_cons, List.filterMap_nil]
  rcases version_step (Run.mem_steps hmem).2 with ⟨v, hv, -, hafter⟩ | ⟨hquiet, -, hsame⟩
  · simp [hv, RegistryOutput.version?, hafter]
  · simp only [version?_eq_none hquiet, List.append_nil]
    exact hsame.trans hbefore

/-- In every state that an interleaving of challenges, refreshes and lookups reaches, the
registry is sound. Versions strictly increase from install to install, and the version in
force is the one installed last. A section that is not an install, the failing ones
included, leaves entries and version as they were. -/
theorem registry_invariant (hsha : Function.Injective env.sha256) (schedule : List ℕ) :
    (installedVersions (registrySteps env calls schedule)).Pairwise (· < ·) ∧
      ∀ before step after, registrySteps env calls schedule = before ++ step :: after →
        RegistrySound env step.before.shared ∧ RegistrySound env step.after.shared ∧
        step.before.shared.version = (installedVersions before).getLastD 0 ∧
        (∀ v, step.output = .installed v → step.before.shared.version < v ∧
          step.after.shared.version = v) ∧
        ((∀ v, step.output ≠ .installed v) →
          step.after.shared.entries = step.before.shared.entries ∧
            step.after.shared.version = step.before.shared.version) := by
  refine ⟨(List.pairwise_cons.mp (pairwise_installedVersions schedule)).2, ?_⟩
  intro before step after hsplit
  have hmem : step ∈ registrySteps env calls schedule := by
    rw [hsplit]
    simp
  have hboot : RegistrySound env RegistrySystem.boot.shared ∧
      ∀ j, PassedChecks env (calls j) (RegistrySystem.boot.progress j) :=
    ⟨⟨nofun, nofun, nofun, .inl ⟨rfl, rfl⟩⟩, fun _ => trivial⟩
  have hsound := Run.invariant (I := fun sys => RegistrySound env sys.shared ∧
    ∀ j, PassedChecks env (calls j) (sys.progress j)) hboot
    (fun step hstep hbefore => registrySound_step hsha (Run.mem_steps hstep).2 hbefore.1 hbefore.2)
    step hmem
  refine ⟨hsound.1.1, hsound.2.1, version_before_of_steps hsplit, ?_⟩
  rcases version_step (Run.mem_steps hmem).2 with ⟨v, hv, hlt, hafter⟩ | ⟨hquiet, hentries,
    hversion⟩
  · refine ⟨fun w hw => ?_, fun hquiet => absurd hv (hquiet v)⟩
    obtain rfl := RegistryOutput.installed.inj (hv.symm.trans hw)
    exact ⟨hlt, hafter⟩
  · exact ⟨fun v hv => absurd hv (hquiet v), fun _ => ⟨hentries, hversion⟩⟩

end

namespace Sample

def registryNonce : Bytes := List.replicate 32 17

def registryEntries (venues : String) : Bytes :=
  bytes ("[\x7b\"token\":\"sample-token\",\"customer_id\":\"acme\",\"allowed_venues\":[" ++
    venues ++ "]\x7d]")

def registryEntries1 : Bytes := registryEntries "\"binance\""

def registryEntries2 : Bytes := registryEntries "\"binance\",\"okx\""

def registryDigests : List (Bytes × Bytes) :=
  [(registryEntries1,
      beBytes 32 0x7518c6446015ef3f7e9982d7f082bc811d8b3125989809184b8b5109ea43ad02),
    (registryEntries2,
      beBytes 32 0x6662ac7e7dc09d17b0e205476f0f8ac063b4d713a4993ab1f22b5baa9347ac6c),
    (bytes "\x7b\"allowed_venues\":[\"binance\"],\"customer_id\":\"acme\",\"mode\":\"active\"\x7d",
      beBytes 32 0xca6276980932b6c0f606268e8699f34738c37fb83901ee22f0a9cf46fb0b7348),
    (bytes ("\x7b\"allowed_venues\":[\"binance\",\"okx\"],\"customer_id\":\"acme\"," ++
        "\"mode\":\"active\"\x7d"),
      beBytes 32 0xf19c6bcd4c478359474c1c553d884d826cc409cdca5055fb849abc852a9bc29b)]

def registrySignature1 : Bytes := List.replicate 64 1

def registrySignature2 : Bytes := List.replicate 64 2

def controlPlaneKey : Bytes :=
  beBytes 32 0x6e7a1cdd29b0b78fd13af4c5598feff4ef2a97166e3ca6f2e4fbfccd80505bf1

def registrySigned : List (Bytes × Bytes) :=
  [(Registry.signedMessage registryNonce 1 (digests registryDigests registryEntries1),
      registrySignature1),
    (Registry.signedMessage registryNonce 2 (digests registryDigests registryEntries2),
      registrySignature2)]

def refreshEntry (venues : List String) : RefreshEntry :=
  { token, customerId := customer, allowedVenues := venues }

/-- The control plane has signed two registries over one nonce. -/
def registryEnv : Env :=
  { env bareBlob with
    registryPubkey := some (hexEncode controlPlaneKey)
    sha256 := digests registryDigests
    ed25519Verify := fun key message sig =>
      key = controlPlaneKey ∧ (message, sig) ∈ registrySigned
    entriesFromSlice := fun b =>
      if b = registryEntries1 then some [refreshEntry ["binance"]]
      else if b = registryEntries2 then some [refreshEntry ["binance", "okx"]]
      else none }

theorem registryEnv_sha256_injective : Function.Injective registryEnv.sha256 :=
  digests_injective (by decide +kernel) (by decide +kernel)

def registryCalls : ℕ → RegistryCall
  | 0 => .challenge registryNonce
  | 1 => .refresh registryEntries1 (hexEncode registryNonce) 1 (hexEncode registrySignature1)
  | 2 => .refresh registryEntries2 (hexEncode registryNonce) 2 (hexEncode registrySignature2)
  | _ => .resolve token

theorem validate_eq_ok {sig : Bytes} {version : UInt64} {venues : List String}
    (hpending : reg.pendingNonce = some registryNonce) (hsig : sig.length = 64)
    (hsigned : (Registry.signedMessage registryNonce version
      (digests registryDigests entriesJson), sig) ∈ registrySigned)
    (hparsed : registryEnv.entriesFromSlice entriesJson = some [refreshEntry venues])
    (hchecked : Registry.checkEntry (refreshEntry venues) = .ok ()) :
    reg.validate registryEnv entriesJson (hexEncode registryNonce) version
      (hexEncode sig) = .ok (registryNonce, [refreshEntry venues]) := by
  have hkey : Registry.controlPlaneVk registryEnv = .ok controlPlaneKey := by
    simp only [Registry.controlPlaneVk, registryEnv, hexDecodeExact_trim_hexEncode,
      show controlPlaneKey.length = 32 from rfl]
    rfl
  have hverify : registryEnv.ed25519Verify controlPlaneKey
      (Registry.signedMessage registryNonce version
        (registryEnv.sha256 entriesJson)) sig = true :=
    decide_eq_true ⟨rfl, hsigned⟩
  rw [Registry.validate_eq_mapM hkey (hexDecodeExact_trim_hexEncode 32 registryNonce)
    hpending (by rw [hexDecodeExact_trim_hexEncode, if_pos hsig]) hverify hparsed (by simp)]
  simp [hchecked, Except.map, bind, Except.bind, pure, Except.pure]

theorem section_challenge :
    registrySection registryEnv (registryCalls 0) .started reg =
      (.challenged (hexEncode registryNonce), .finished,
        { reg with pendingNonce := some registryNonce }) :=
  rfl

theorem section_check1 (hpending : reg.pendingNonce = some registryNonce) :
    registrySection registryEnv (registryCalls 1) .started reg =
      (.checked, .checked registryNonce [refreshEntry ["binance"]], reg) :=
  section_check <| validate_eq_ok hpending rfl List.mem_cons_self (by decide +kernel)
    (by decide +kernel)

theorem section_check2 (hpending : reg.pendingNonce = some registryNonce) :
    registrySection registryEnv (registryCalls 2) .started reg =
      (.checked, .checked registryNonce [refreshEntry ["binance", "okx"]], reg) :=
  section_check <| validate_eq_ok hpending rfl (by simp [registrySigned])
    (by decide +kernel) (by decide +kernel)

theorem section_install1 {entries : List RefreshEntry}
    (hversion : reg.version < 1) :
    registrySection registryEnv (registryCalls 1) (.checked nonce entries) reg =
      (.installed 1, .finished,
        { entries := entries.map (Registry.resident registryEnv)
          version := 1
          pendingNonce := if reg.pendingNonce = some nonce then none else reg.pendingNonce }) :=
  section_install hversion

theorem section_install2 {entries : List RefreshEntry}
    (hversion : reg.version < 2) :
    registrySection registryEnv (registryCalls 2) (.checked nonce entries) reg =
      (.installed 2, .finished,
        { entries := entries.map (Registry.resident registryEnv)
          version := 2
          pendingNonce := if reg.pendingNonce = some nonce then none else reg.pendingNonce }) :=
  section_install hversion

end Sample

/-- Two refreshes over one nonce, both checked before either installs. -/
theorem registry_invariant_sample :
    installedVersions (registrySteps Sample.registryEnv Sample.registryCalls [0, 1, 2, 1, 2]) =
        [1, 2] ∧
      ∃ step ∈ registrySteps Sample.registryEnv Sample.registryCalls [0, 1, 2, 1, 2],
        step.output.version? = some 2 ∧ RegistrySound Sample.registryEnv step.after.shared := by
  have hversions :
      installedVersions (registrySteps Sample.registryEnv Sample.registryCalls [0, 1, 2, 1, 2]) =
        [1, 2] := by
    simp [registrySteps, Run.steps, Interleaving.step, RegistrySystem.boot, installedVersions,
      RegistryOutput.version?, Sample.section_challenge, Sample.section_check1,
      Sample.section_check2, Sample.section_install1, Sample.section_install2]
  obtain ⟨step, hmem, hstep⟩ := List.mem_filterMap.mp (hversions ▸ List.mem_cons_of_mem 1
    List.mem_cons_self : (2 : UInt64) ∈ installedVersions _)
  obtain ⟨before, after, hsplit⟩ := List.append_of_mem hmem
  exact ⟨hversions, step, hmem, hstep, ((registry_invariant
    Sample.registryEnv_sha256_injective [0, 1, 2, 1, 2]).2 before step after hsplit).2.1⟩

/-! ### How often a nonce installs

An install compares the nonce with the pending one and clears it, but does not insist on it:
a refresh that was checked over a nonce installs even if another has used it meanwhile. -/

def RegistryCall.version : RegistryCall → UInt64
  | .refresh _ _ version _ => version
  | _ => 0

def RegistryCall.presentedNonce : RegistryCall → Option Bytes
  | .refresh _ nonceHex _ _ => hexDecodeExact 32 (trim nonceHex)
  | _ => none

def RegistryProgress.nonce? : RegistryProgress → Option Bytes
  | .checked nonce _ => some nonce
  | _ => none

def installsOver (calls : ℕ → RegistryCall) (nonce : Bytes) (steps : List RegistryStep) :
    List RegistryStep :=
  steps.filter fun step =>
    step.output.version?.isSome ∧ (calls step.input).presentedNonce = some nonce

/-- No other refresh over the same nonce waits with a higher version. -/
def Uncontested (calls : ℕ → RegistryCall) (schedule : List ℕ) (step : RegistryStep) : Prop :=
  ∀ j ∈ schedule, j ≠ step.input → (step.before.progress step.input).nonce?.isSome = true →
    (step.before.progress j).nonce? = (step.before.progress step.input).nonce? →
    (calls j).version ≤ (calls step.input).version

instance (calls : ℕ → RegistryCall) (schedule : List ℕ) (step : RegistryStep) :
    Decidable (Uncontested calls schedule step) :=
  inferInstanceAs (Decidable (∀ j ∈ schedule, _))

def Issued (calls : ℕ → RegistryCall) (sys : RegistrySystem) (nonce : Bytes) : Prop :=
  ∃ c, calls c = .challenge nonce ∧ sys.progress c = .finished

structure NoncesIssued (calls : ℕ → RegistryCall) (sys : RegistrySystem) : Prop where
  pending : ∀ nonce, sys.shared.pendingNonce = some nonce → Issued calls sys nonce
  checked : ∀ j nonce, (sys.progress j).nonce? = some nonce →
    Issued calls sys nonce ∧ (calls j).presentedNonce = some nonce

structure Spent (calls : ℕ → RegistryCall) (sys : RegistrySystem) (nonce : Bytes) : Prop where
  issued : Issued calls sys nonce
  not_pending : sys.shared.pendingNonce ≠ some nonce
  outdated : ∀ j, (sys.progress j).nonce? = some nonce →
    (calls j).version ≤ sys.shared.version

section

variable {env : Env} {calls : ℕ → RegistryCall} {i : ℕ} {sys sys' : RegistrySystem}
  {output : RegistryOutput} {nonce : Bytes}

variable (hdistinct : ∀ i j n, calls i = .challenge n → calls j = .challenge n → i = j)
  (h : Interleaving.step (fun i => registrySection env (calls i)) i sys = (output, sys'))

include h in
theorem Issued.step (hissued : Issued calls sys nonce) : Issued calls sys' nonce := by
  obtain ⟨c, hc, hfinished⟩ := hissued
  refine ⟨c, hc, ?_⟩
  by_cases hci : c = i
  · subst hci
    have hmove := registryMove_of_step h
    rw [hfinished] at hmove
    generalize sys'.progress c = progress', sys'.shared = reg' at hmove
    cases hmove
    rfl
  · rw [(Interleaving.step_eq h).2 c hci, hfinished]

section

variable (hmove : RegistryMove env call reg progress output progress' reg')

include hmove

theorem RegistryMove.pending (h : reg'.pendingNonce = some nonce) :
    reg.pendingNonce = some nonce ∨
      call = .challenge nonce ∧ progress = .started ∧ progress' = .finished := by
  cases hmove with
  | challenged hcall =>
    cases h
    exact .inr ⟨hcall, rfl, rfl⟩
  | checked hcall hchecked => exact .inl h
  | installed hcall hversion =>
    rw [Option.ite_none_left_eq_some] at h
    exact .inl h.2
  | quiet hquiet => exact .inl h

theorem RegistryMove.checked_over (h : progress'.nonce? = some nonce) :
    reg.pendingNonce = some nonce ∧ call.presentedNonce = some nonce := by
  cases hmove with
  | checked hcall hchecked =>
    cases h
    rw [hcall]
    exact ⟨hchecked.pending, hchecked.nonce_eq⟩
  | challenged | installed | quiet => cases h

theorem RegistryMove.install (h : output.version?.isSome = true) :
    progress'.nonce? = none ∧ reg.version < call.version ∧ reg'.version = call.version ∧
      ∃ n, progress.nonce? = some n ∧ reg'.pendingNonce ≠ some n := by
  cases hmove with
  | installed hcall hversion =>
    rw [hcall]
    refine ⟨rfl, hversion, rfl, _, rfl, ?_⟩
    simp
  | quiet hquiet => simp [version?_eq_none hquiet] at h
  | challenged | checked => cases h

theorem RegistryMove.entries :
    reg'.entries = reg.entries ∨
      ∃ n entries, progress = .checked n entries ∧ reg.version < call.version ∧
        reg'.entries = entries.map (Registry.resident env) := by
  cases hmove with
  | challenged hcall => exact .inl rfl
  | checked hcall hchecked => exact .inl rfl
  | installed hcall hversion =>
    rw [hcall]
    exact .inr ⟨_, _, rfl, hversion, rfl⟩
  | quiet hquiet => exact .inl rfl

end

include h

theorem noncesIssued_step (hissued : NoncesIssued calls sys) : NoncesIssued calls sys' := by
  have hmove := registryMove_of_step h
  refine ⟨fun n hn => ?_, fun j n hn => ?_⟩
  · rcases hmove.pending hn with hpending | ⟨hcall, -, hfinished⟩
    · exact (hissued.pending n hpending).step h
    · exact ⟨i, hcall, hfinished⟩
  · by_cases hji : j = i
    · subst hji
      obtain ⟨hpending, hpresented⟩ := hmove.checked_over hn
      exact ⟨(hissued.pending n hpending).step h, hpresented⟩
    · rw [(Interleaving.step_eq h).2 j hji] at hn
      exact ⟨(hissued.checked j n hn).1.step h, (hissued.checked j n hn).2⟩

theorem version_le_step : sys.shared.version ≤ sys'.shared.version := by
  rcases version_step h with ⟨v, -, hlt, rfl⟩ | ⟨-, -, hsame⟩
  · exact UInt64.le_of_lt hlt
  · exact UInt64.le_of_eq hsame.symm

include hdistinct in
theorem spent_step (hspent : Spent calls sys nonce) : Spent calls sys' nonce := by
  have hmove := registryMove_of_step h
  refine ⟨hspent.issued.step h, fun hpending => ?_, fun j hj => ?_⟩
  · rcases hmove.pending hpending with hbefore | ⟨hcall, hstarted, -⟩
    · exact hspent.not_pending hbefore
    · obtain ⟨c, hc, hfinished⟩ := hspent.issued
      obtain rfl := hdistinct c i nonce hc hcall
      rw [hfinished] at hstarted
      cases hstarted
  · by_cases hji : j = i
    · subst hji
      exact absurd (hmove.checked_over hj).1 hspent.not_pending
    · rw [(Interleaving.step_eq h).2 j hji] at hj
      exact UInt64.le_trans (hspent.outdated j hj) (version_le_step h)

theorem not_install_of_spent (hissued : NoncesIssued calls sys) (hspent : Spent calls sys nonce)
    (hpresented : (calls i).presentedNonce = some nonce) : output.version?.isSome = false := by
  rw [Bool.eq_false_iff]
  intro hinstall
  obtain ⟨-, hlt, -, n, hn, -⟩ := (registryMove_of_step h).install hinstall
  obtain rfl := Option.some.inj ((hissued.checked i n hn).2.symm.trans hpresented)
  exact UInt64.not_le.mpr hlt (hspent.outdated i hn)

theorem spent_of_install (hissued : NoncesIssued calls sys)
    (hinstall : output.version?.isSome = true)
    (hpresented : (calls i).presentedNonce = some nonce)
    (huncontested : ∀ j, j ≠ i → (sys.progress i).nonce?.isSome = true →
      (sys.progress j).nonce? = (sys.progress i).nonce? →
      (calls j).version ≤ (calls i).version) : Spent calls sys' nonce := by
  obtain ⟨hself, -, hversion, n, hn, hpending⟩ := (registryMove_of_step h).install hinstall
  obtain ⟨hn', hpresented'⟩ := hissued.checked i n hn
  obtain rfl := Option.mem_unique hpresented' hpresented
  refine ⟨hn'.step h, hpending, fun j hj => ?_⟩
  by_cases hji : j = i
  · rw [hji, hself] at hj
    cases hj
  · rw [(Interleaving.step_eq h).2 j hji] at hj
    rw [hversion]
    exact huncontested j hji (by rw [hn]; rfl) (hj.trans hn.symm)

omit h

/-- In every interleaving whose installs are uncontested, a nonce installs at most once. -/
theorem registry_nonce_one_shot
    (hdistinct : ∀ i j n, calls i = .challenge n → calls j = .challenge n → i = j)
    (schedule : List ℕ)
    (huncontested : ∀ step ∈ registrySteps env calls schedule, Uncontested calls schedule step)
    (nonce : Bytes) :
    (installsOver calls nonce (registrySteps env calls schedule)).length ≤ 1 := by
  have hissued : ∀ step ∈ registrySteps env calls schedule,
      NoncesIssued calls step.before ∧ NoncesIssued calls step.after :=
    Run.invariant ⟨nofun, nofun⟩ fun step hstep hbefore =>
      noncesIssued_step (Run.mem_steps hstep).2 hbefore
  refine Run.length_filter_le_one fun before step after hsplit hinstall later hlater => ?_
  obtain ⟨hversion, hpresented⟩ := of_decide_eq_true hinstall
  have hmem : ∀ s ∈ step :: after, s ∈ registrySteps env calls schedule := by
    intro s hs
    rw [hsplit]
    exact List.mem_append_right before hs
  have hspent : Spent calls step.after nonce := by
    have hstep := hmem step List.mem_cons_self
    refine spent_of_install (Run.mem_steps hstep).2 (hissued step hstep).1 hversion hpresented ?_
    intro j hj hself hsame
    by_cases hscheduled : j ∈ schedule
    · exact huncontested step hstep j hscheduled hj hself hsame
    · rw [Interleaving.progress_of_notMem hstep hscheduled] at hsame
      rw [← hsame] at hself
      cases hself
  have hkept := Run.invariant_after (I := fun sys => Spent calls sys nonce) hsplit hspent
    (fun s hs hbefore => spent_step hdistinct
      (Run.mem_steps (hmem s (List.mem_cons_of_mem _ hs))).2 hbefore) later hlater
  have hlater' := hmem later (List.mem_cons_of_mem _ hlater)
  rw [decide_eq_false_iff_not, not_and]
  intro hagain hpresented'
  rw [not_install_of_spent (Run.mem_steps hlater').2 (hissued later hlater').1 hkept.1 hpresented']
    at hagain
  cases hagain

end

theorem Sample.registryCalls_challenge {i : ℕ} {n : Bytes}
    (h : Sample.registryCalls i = .challenge n) : i = 0 := by
  unfold Sample.registryCalls at h
  split at h
  · rfl
  all_goals cases h

/-- A challenge and one refresh. -/
theorem registry_nonce_one_shot_sample :
    (∀ step ∈ registrySteps Sample.registryEnv Sample.registryCalls [0, 1, 1],
        Uncontested Sample.registryCalls [0, 1, 1] step) ∧
      installedVersions (registrySteps Sample.registryEnv Sample.registryCalls [0, 1, 1]) = [1] ∧
      (installsOver Sample.registryCalls Sample.registryNonce
        (registrySteps Sample.registryEnv Sample.registryCalls [0, 1, 1])).length ≤ 1 := by
  have huncontested : ∀ step ∈ registrySteps Sample.registryEnv Sample.registryCalls [0, 1, 1],
      Uncontested Sample.registryCalls [0, 1, 1] step := by
    simp [registrySteps, Run.steps, Interleaving.step, RegistrySystem.boot, Uncontested,
      RegistryProgress.nonce?, Sample.section_challenge, Sample.section_check1,
      Sample.section_install1]
  refine ⟨huncontested, ?_, registry_nonce_one_shot (fun i j n hi hj =>
    (Sample.registryCalls_challenge hi).trans (Sample.registryCalls_challenge hj).symm) _
    huncontested _⟩
  simp [registrySteps, Run.steps, Interleaving.step, RegistrySystem.boot, installedVersions,
    RegistryOutput.version?, Sample.section_challenge, Sample.section_check1,
    Sample.section_install1]

/-- Two refreshes pass their checks over one nonce, and both install. -/
theorem registry_nonce_installs_twice :
    (installsOver Sample.registryCalls Sample.registryNonce
      (registrySteps Sample.registryEnv Sample.registryCalls [0, 1, 2, 1, 2])).length = 2 := by
  have hpresented : ∀ i ∈ [1, 2],
      (Sample.registryCalls i).presentedNonce = some Sample.registryNonce := by
    simp [Sample.registryCalls, RegistryCall.presentedNonce,
      show Sample.registryNonce.length = 32 from rfl]
  simp [installsOver, registrySteps, Run.steps, Interleaving.step, RegistrySystem.boot,
    RegistryOutput.version?, hpresented, Sample.section_challenge, Sample.section_check1,
    Sample.section_check2, Sample.section_install1, Sample.section_install2]

end Signer
