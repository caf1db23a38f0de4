import Signer.RegistryRuns

/-!
# Heartbeats under concurrent refreshes

A heartbeat names the version of the registry and the digest of the caller's entry. The entry is
that of the identity, resolved when the request comes in; the version is read when the document is
put together. Each read takes the registry lock for itself, and so do the limiter, the key and the
counter in between, so that a refresh may land anywhere.
-/

namespace Signer

inductive HeartbeatCall where
  | registry (call : RegistryCall)
  | heartbeat (amb : Ambient) (req : SignRequest)

inductive HeartbeatProgress where
  | started
  | registry (progress : RegistryProgress)
  | resolved (identity : Option ResolvedIdentity)
  | limited (identity : ResolvedIdentity) (nonce : String)
  | keyed (identity : ResolvedIdentity) (nonce : String) (pk : Bytes) (entryHash : String)
  | counted (identity : ResolvedIdentity) (nonce : String) (pk : Bytes) (entryHash : String)
      (seq : SeqTable)
  | finished

inductive HeartbeatOutput where
  | registry (output : RegistryOutput)
  | issued (hb : ReceiptHeartbeat)
  | refused (code : ErrCode)
  | idle

/-- The nonce of a heartbeat request, if `handle_receipt_heartbeat` takes it. -/
def heartbeatNonce (req : SignRequest) : Option String :=
  req.clientNonce.filter fun nonce =>
    (nonce ≠ "" ∧ nonce.utf8ByteSize ≤ maxClientNonceLen) ∧
      nonce.toList.all fun c => Text.isAsciiAlphanumeric c ∨ c = '-' ∨ c = '_'

def HeartbeatUnavailable.code : HeartbeatUnavailable → ErrCode
  | .noKey => .receiptsUnavailable
  | .internal _ => .internalError

def Enclave.registrySection (env : Env) (call : RegistryCall) (progress : RegistryProgress)
    (s : Enclave) : HeartbeatOutput × HeartbeatProgress × Enclave :=
  let taken := Signer.registrySection env call progress s.registry
  (.registry taken.1, .registry taken.2.1, { s with registry := taken.2.2 })

def limiterSection (env : Env) (amb : Ambient) (req : SignRequest)
    (identity : Option ResolvedIdentity) (s : Enclave) :
    HeartbeatOutput × HeartbeatProgress × Enclave :=
  let checked := s.limiter.check env.rateCapacity env.ratePerSec amb.rateNow (rateKey identity)
  let s₁ := { s with limiter := checked.2 }
  if !checked.1 then (.refused .rateLimited, .finished, s₁)
  else
    match identity with
    | none => (.refused .badRequest, .finished, s₁)
    | some identity =>
      match tenantModeGate identity req, heartbeatNonce req with
      | .error code, _ => (.refused code, .finished, s₁)
      | .ok (), none => (.refused .badRequest, .finished, s₁)
      | .ok (), some nonce => (.idle, .limited identity nonce, s₁)

def heartbeatSection (env : Env) (call : HeartbeatCall) (progress : HeartbeatProgress)
    (s : Enclave) : HeartbeatOutput × HeartbeatProgress × Enclave :=
  match call, progress with
  | .registry call, .started => s.registrySection env call .started
  | .registry call, .registry progress => s.registrySection env call progress
  | .heartbeat _ req, .started =>
    if req.protoVersion < requiredProtoVersion then (.refused .badRequest, .finished, s)
    else (.idle, .resolved (resolveIdentity env req s), s)
  | .heartbeat amb req, .resolved identity => limiterSection env amb req identity s
  | .heartbeat _ _, .limited identity nonce =>
    match s.receipts.heartbeatKey env identity with
    | .error e => (.refused e.code, .finished, s)
    | .ok (pk, entryHash) => (.idle, .keyed identity nonce pk entryHash, s)
  | .heartbeat _ _, .keyed identity nonce pk entryHash =>
    (.idle, .counted identity nonce pk entryHash s.receipts.seq, s)
  | .heartbeat _ _, .counted identity nonce pk entryHash seq =>
    match SeqTable.heartbeat env env.receiptSigner pk entryHash identity nonce
      s.registry.version seq with
    | .error e => (.refused e.code, .finished, s)
    | .ok hb => (.issued hb, .finished, s)
  | _, _ => (.idle, .finished, s)

abbrev HeartbeatSystem := Interleaving.System Enclave HeartbeatProgress

abbrev HeartbeatStep := Run.Step ℕ HeartbeatSystem HeartbeatOutput

def heartbeatSteps (env : Env) (calls : ℕ → HeartbeatCall) (s : Enclave) (schedule : List ℕ) :
    List HeartbeatStep :=
  Run.steps (Interleaving.step fun i => heartbeatSection env (calls i))
    { shared := s, progress := fun _ => .started } schedule

/-! ### The sections of one request -/

section

variable {env : Env} {amb : Ambient} {req : SignRequest} {s : Enclave}

/-- The sections of one heartbeat request with nothing in between, up to its answer. -/
def heartbeatAlone (env : Env) (amb : Ambient) (req : SignRequest) :
    ℕ → HeartbeatProgress → Enclave → Option (Served × Enclave)
  | 0, _, _ => none
  | n + 1, progress, s =>
    match heartbeatSection env (.heartbeat amb req) progress s with
    | (.issued hb, _, s') =>
      some (⟨{ SignResponse.ok "" with heartbeat := some hb }, true, []⟩, s')
    | (.refused code, _, s') => some (.refused code, s')
    | (_, progress', s') => heartbeatAlone env amb req n progress' s'

theorem serve_heartbeat (identity : ResolvedIdentity) :
    serve (handleReceiptHeartbeat env req identity) s =
      match heartbeatNonce req with
      | none => (.refused .badRequest, s)
      | some nonce =>
        match s.receipts.issueHeartbeat env identity nonce s.registry.version with
        | .ok hb => (⟨{ SignResponse.ok "" with heartbeat := some hb }, true, []⟩, s)
        | .error e => (.refused e.code, s) := by
  simp only [serve, handleReceiptHeartbeat, heartbeatNonce, Proc.run_ofOption_bind]
  cases req.clientNonce with
  | none => rfl
  | some nonce =>
    simp only [Option.elim_some, Proc.run_ensure_bind, Proc.run_read_bind, Option.filter_some,
      decide_eq_true_eq]
    by_cases hlen : nonce ≠ "" ∧ nonce.utf8ByteSize ≤ maxClientNonceLen
    · by_cases hchars : (nonce.toList.all fun c =>
          decide (Text.isAsciiAlphanumeric c = true ∨ c = '-' ∨ c = '_')) = true
      · rw [if_pos hlen, if_pos hchars, if_pos ⟨hlen, hchars⟩]
        dsimp only
        rcases s.receipts.issueHeartbeat env identity nonce s.registry.version with
          (_ | _) | hb <;> rfl
      · rw [if_pos hlen, if_neg hchars, if_neg fun h => hchars h.2]
        rfl
    · rw [if_neg hlen, if_neg fun h => hlen h.1]
      rfl

theorem heartbeatAlone_limited {identity : ResolvedIdentity} {nonce : String}
    (hnonce : heartbeatNonce req = some nonce) :
    heartbeatAlone env amb req 3 (.limited identity nonce) s =
      some (serve (handleReceiptHeartbeat env req identity) s) := by
  simp only [serve_heartbeat, hnonce, ReceiptStore.issueHeartbeat, heartbeatAlone,
    heartbeatSection]
  cases hkey : s.receipts.heartbeatKey env identity with
  | error e => rfl
  | ok keyed =>
    simp only
    cases SeqTable.heartbeat env env.receiptSigner keyed.1 keyed.2 identity nonce
      s.registry.version s.receipts.seq <;> rfl

theorem tenantModeGate_heartbeat (hreq : req.action = .receiptHeartbeat)
    (identity : ResolvedIdentity) : tenantModeGate identity req = .ok () := by
  unfold tenantModeGate
  cases identity.mode <;> simp [hreq, cancelOnlyAllows]

theorem attachReceipt_heartbeat (hreq : req.action = .receiptHeartbeat)
    (identity : ResolvedIdentity) (served : Served × Enclave) :
    attachReceipt env (ReceiptPre.capture env identity req) served = served := by
  have hkey : served.2.receipts.issueKey (ReceiptPre.capture env identity req) = none := by
    simp [ReceiptStore.issueKey, ReceiptPre.capture, hreq,
      show isReceiptedAction .receiptHeartbeat = false by decide]
  simp only [attachReceipt, ReceiptStore.attach, ReceiptStore.issuePre, hkey]

/-- The handler of the requests answers a heartbeat, refusals included, and leaves the state as
the five sections do when nothing runs between them. -/
theorem handle_heartbeat (hreq : req.action = .receiptHeartbeat) :
    heartbeatAlone env amb req 5 .started s = some (handle env amb req s) := by
  have hbypass : bypassHandler env amb req = none := by simp only [bypassHandler, hreq]
  rw [heartbeatAlone]
  simp only [handle, hbypass, heartbeatSection, checkRate]
  by_cases hproto : req.protoVersion < requiredProtoVersion
  · simp only [if_pos hproto]
  simp only [if_neg hproto, heartbeatAlone, heartbeatSection, limiterSection]
  by_cases hpassed : (s.limiter.check env.rateCapacity env.ratePerSec amb.rateNow
      (rateKey (resolveIdentity env req s))).1 = true
  · simp only [hpassed, Bool.not_true, Bool.false_eq_true, if_false]
    cases resolveIdentity env req s with
    | none => rfl
    | some identity =>
      simp only [attachReceipt_heartbeat hreq, answer, tenantModeGate_heartbeat hreq, dispatch, hreq]
      cases hnonce : heartbeatNonce req with
      | none => rw [serve_heartbeat, hnonce]
      | some nonce => exact heartbeatAlone_limited hnonce
  · simp only [hpassed, Bool.not_false, if_true]

end

/-! ### Version and entry along a schedule -/

def HeartbeatProgress.identity? : HeartbeatProgress → Option ResolvedIdentity
  | .resolved identity => identity
  | .limited identity _ => some identity
  | .keyed identity _ _ _ => some identity
  | .counted identity _ _ _ _ => some identity
  | _ => none

def HeartbeatProgress.entry? : HeartbeatProgress → Option (ResolvedIdentity × String)
  | .keyed identity _ _ entryHash => some (identity, entryHash)
  | .counted identity _ _ entryHash _ => some (identity, entryHash)
  | _ => none

def HeartbeatProgress.installing? : HeartbeatProgress → Option (List RefreshEntry)
  | .registry (.checked _ entries) => some entries
  | _ => none

def HeartbeatCall.token? : HeartbeatCall → Option String
  | .heartbeat _ req => req.opaqueToken
  | .registry _ => none

def HeartbeatCall.version : HeartbeatCall → UInt64
  | .registry call => call.version
  | .heartbeat _ _ => 0

/-- An install does not change the entry of a caller whose heartbeat is under way. -/
def Undisturbed (env : Env) (calls : ℕ → HeartbeatCall) (schedule : List ℕ)
    (step : HeartbeatStep) : Prop :=
  ∀ entries ∈ (step.before.progress step.input).installing?,
    step.before.shared.registry.version < (calls step.input).version →
    ∀ j ∈ schedule, ∀ identity ∈ (step.before.progress j).identity?,
      ∀ token ∈ (calls j).token?,
        Registry.resolve env { entries := entries.map (Registry.resident env) } token =
          some identity

def registriesInForce (s : Enclave) (steps : List HeartbeatStep) : List Registry :=
  s.registry :: steps.map fun step => step.after.shared.registry

/-- Version and entry are those of one registry that was in force. -/
def OfOneRegistry (env : Env) (token : String) (registries : List Registry)
    (hb : ReceiptHeartbeat) : Prop :=
  ∃ reg ∈ registries, hb.registryVersion = reg.version.toNat.repr ∧
    (reg.resolve env token).bind (ResolvedIdentity.entryHash env) = some hb.entryHash

inductive HeartbeatMove (env : Env) (call : HeartbeatCall) (s : Enclave) :
    HeartbeatProgress → HeartbeatOutput → HeartbeatProgress → Enclave → Prop
  | registry {progress : HeartbeatProgress} {inner : RegistryCall} {before after : RegistryProgress}
      {output : RegistryOutput} {reg' : Registry} (hcall : call = .registry inner)
      (hprogress : progress = .registry before ∨ before = .started)
      (hmove : RegistryMove env inner s.registry before output after reg') :
    HeartbeatMove env call s progress (.registry output) (.registry after)
      { s with registry := reg' }
  | resolved {amb : Ambient} {req : SignRequest} (hcall : call = .heartbeat amb req) :
    HeartbeatMove env call s .started .idle (.resolved (resolveIdentity env req s)) s
  | limited {identity : ResolvedIdentity} {nonce : String} {limiter : RateLimiter} :
    HeartbeatMove env call s (.resolved (some identity)) .idle (.limited identity nonce)
      { s with limiter := limiter }
  | keyed {identity : ResolvedIdentity} {nonce : String} {pk : Bytes} {entryHash : String}
      (hhash : identity.entryHash env = some entryHash) :
    HeartbeatMove env call s (.limited identity nonce) .idle (.keyed identity nonce pk entryHash) s
  | counted {identity : ResolvedIdentity} {nonce : String} {pk : Bytes} {entryHash : String}
      {seq : SeqTable} :
    HeartbeatMove env call s (.keyed identity nonce pk entryHash) .idle
      (.counted identity nonce pk entryHash seq) s
  | issued {identity : ResolvedIdentity} {nonce : String} {pk : Bytes} {entryHash : String}
      {seq : SeqTable} {hb : ReceiptHeartbeat}
      (hheartbeat : SeqTable.heartbeat env env.receiptSigner pk entryHash identity nonce
        s.registry.version seq = .ok hb) :
    HeartbeatMove env call s (.counted identity nonce pk entryHash seq) (.issued hb) .finished s
  | ended {progress : HeartbeatProgress} {output : HeartbeatOutput} {limiter : RateLimiter}
      (houtput : ∀ hb, output ≠ .issued hb) :
    HeartbeatMove env call s progress output .finished { s with limiter := limiter }

/-- What a call has read still holds. -/
structure HeartbeatKnows (env : Env) (call : HeartbeatCall) (progress : HeartbeatProgress)
    (s : Enclave) : Prop where
  resolves : ∀ identity ∈ progress.identity?,
    ∃ token ∈ call.token?, s.registry.resolve env token = some identity
  hashed : ∀ entry ∈ progress.entry?,
    progress.identity? = some entry.1 ∧ entry.1.entryHash env = some entry.2

variable {pk : Bytes} {hb : ReceiptHeartbeat}

section

variable {env : Env} {call : HeartbeatCall} {progress progress' : HeartbeatProgress}
  {s s' : Enclave} {output : HeartbeatOutput}

theorem Registry.resolve_congr {reg reg' : Registry} (h : reg'.entries = reg.entries)
    (token : String) : reg'.resolve env token = reg.resolve env token := by
  simp only [Registry.resolve, h]

theorem heartbeatMove_of_limiterSection {amb : Ambient} {req : SignRequest}
    {identity : Option ResolvedIdentity}
    (h : limiterSection env amb req identity s = (output, progress', s')) :
    HeartbeatMove env call s (.resolved identity) output progress' s' := by
  unfold limiterSection at h
  dsimp only at h
  split at h
  · cases h
    exact .ended (by simp)
  split at h
  · cases h
    exact .ended (by simp)
  split at h <;> cases h
  · exact .ended (by simp)
  · exact .ended (by simp)
  · exact .limited

theorem entryHash_of_heartbeatKey {st : ReceiptStore} {identity : ResolvedIdentity}
    {entryHash : String} (h : st.heartbeatKey env identity = .ok (pk, entryHash)) :
    identity.entryHash env = some entryHash := by
  unfold ReceiptStore.heartbeatKey at h
  split at h
  · cases h
  · split at h
    · cases h
    · rename_i hhash
      obtain ⟨-, rfl⟩ := Prod.mk.inj (Except.ok.inj h)
      exact hhash

theorem heartbeatMove_of_section
    (h : heartbeatSection env call progress s = (output, progress', s')) :
    HeartbeatMove env call s progress output progress' s' := by
  unfold heartbeatSection at h
  split at h
  · obtain ⟨rfl, rfl, rfl⟩ := by simpa only [Enclave.registrySection, Prod.mk.injEq] using h
    exact .registry rfl (.inr rfl) (registryMove_of_section rfl)
  · obtain ⟨rfl, rfl, rfl⟩ := by simpa only [Enclave.registrySection, Prod.mk.injEq] using h
    exact .registry rfl (.inl rfl) (registryMove_of_section rfl)
  · split at h <;> cases h
    · exact .ended (by simp)
    · exact .resolved rfl
  · exact heartbeatMove_of_limiterSection h
  · split at h <;> cases h
    · exact .ended (by simp)
    · rename_i hkey
      exact .keyed (entryHash_of_heartbeatKey hkey)
  · cases h
    exact .counted
  · split at h <;> cases h
    · exact .ended (by simp)
    · rename_i hheartbeat
      exact .issued hheartbeat
  · cases h
    exact .ended (by simp)

theorem HeartbeatMove.entries (hmove : HeartbeatMove env call s progress output progress' s') :
    s'.registry.entries = s.registry.entries ∨
      ∃ entries ∈ progress.installing?, s.registry.version < call.version ∧
        s'.registry.entries = entries.map (Registry.resident env) := by
  cases hmove with
  | registry hcall hprogress hmove =>
    rcases hmove.entries with hsame | ⟨n, entries, rfl, hversion, hnew⟩
    · exact .inl hsame
    · obtain rfl := hprogress.resolve_right nofun
      rw [hcall]
      exact .inr ⟨entries, rfl, hversion, hnew⟩
  | resolved | limited | keyed | counted | issued | ended => exact .inl rfl

theorem HeartbeatMove.knows (hmove : HeartbeatMove env call s progress output progress' s')
    (hknows : HeartbeatKnows env call progress s) : HeartbeatKnows env call progress' s' := by
  cases hmove with
  | registry => exact ⟨nofun, nofun⟩
  | resolved hcall =>
    refine ⟨fun identity hidentity => ?_, nofun⟩
    obtain ⟨token, htoken, hresolve⟩ := Option.bind_eq_some_iff.mp hidentity
    rw [hcall]
    exact ⟨token, htoken, hresolve⟩
  | limited => exact ⟨hknows.resolves, nofun⟩
  | keyed hhash =>
    refine ⟨hknows.resolves, fun entry hentry => ?_⟩
    cases hentry
    exact ⟨rfl, hhash⟩
  | counted => exact ⟨hknows.resolves, hknows.hashed⟩
  | issued => exact ⟨nofun, nofun⟩
  | ended => exact ⟨nofun, nofun⟩

theorem HeartbeatMove.issued_eq
    (hmove : HeartbeatMove env call s progress (.issued hb) progress' s')
    (hknows : HeartbeatKnows env call progress s) :
    ∃ token ∈ call.token?, hb.registryVersion = s.registry.version.toNat.repr ∧
      (s.registry.resolve env token).bind (ResolvedIdentity.entryHash env) = some hb.entryHash := by
  cases hmove with
  | issued hheartbeat =>
    obtain ⟨sig, rfl⟩ := SeqTable.heartbeat_ok hheartbeat
    obtain ⟨token, htoken, hresolve⟩ := hknows.resolves _ rfl
    refine ⟨token, htoken, rfl, ?_⟩
    rw [hresolve]
    exact (hknows.hashed _ rfl).2
  | ended houtput => exact absurd rfl (houtput hb)

end

section

variable {env : Env} {calls : ℕ → HeartbeatCall} {schedule : List ℕ}

theorem heartbeatKnows_step {step : HeartbeatStep} {sys : HeartbeatSystem}
    (hsys : ∀ j, sys.progress j = .started)
    (h : step ∈ Run.steps (Interleaving.step fun i => heartbeatSection env (calls i)) sys schedule)
    (hundisturbed : Undisturbed env calls schedule step)
    (hknows : ∀ j, HeartbeatKnows env (calls j) (step.before.progress j) step.before.shared) :
    ∀ j, HeartbeatKnows env (calls j) (step.after.progress j) step.after.shared := by
  obtain ⟨hinput, hmachine⟩ := Run.mem_steps h
  have hmove := heartbeatMove_of_section (Interleaving.step_eq hmachine).1
  refine Interleaving.step_keeps (fun j => HeartbeatKnows env (calls j)) hmachine hknows
    (hmove.knows (hknows step.input)) fun j _ hj => ⟨fun identity hidentity => ?_, hj.hashed⟩
  have hscheduled : j ∈ schedule := by
    by_contra hnot
    rw [Interleaving.progress_of_notMem h hnot, hsys] at hidentity
    cases hidentity
  obtain ⟨token, htoken, hresolve⟩ := hj.resolves identity hidentity
  refine ⟨token, htoken, ?_⟩
  rcases hmove.entries with hsame | ⟨entries, hentries, hversion, hnew⟩
  · rw [Registry.resolve_congr hsame, hresolve]
  · have hresolve' :=
      hundisturbed entries hentries hversion j hscheduled identity hidentity token htoken
    rwa [← Registry.resolve_congr hnew] at hresolve'

/-- In every interleaving whose installs disturb no heartbeat in flight, version and digest of
every heartbeat are those of one registry. -/
theorem heartbeat_of_one_registry (s : Enclave) (schedule : List ℕ)
    (hundisturbed : ∀ step ∈ heartbeatSteps env calls s schedule,
      Undisturbed env calls schedule step) :
    ∀ step ∈ heartbeatSteps env calls s schedule, ∀ hb, step.output = .issued hb →
      ∃ token ∈ (calls step.input).token?,
        OfOneRegistry env token (registriesInForce s (heartbeatSteps env calls s schedule)) hb := by
  intro step hstep hb houtput
  have hstart : ∀ j, HeartbeatKnows env (calls j) .started s := fun j => ⟨nofun, nofun⟩
  have hknows := Run.invariant (I := fun sys : HeartbeatSystem =>
    ∀ j, HeartbeatKnows env (calls j) (sys.progress j) sys.shared) hstart
    (fun step hstep hbefore => heartbeatKnows_step (fun _ => rfl) hstep (hundisturbed step hstep)
      hbefore) step hstep
  have hmove := heartbeatMove_of_section (Interleaving.step_eq (Run.mem_steps hstep).2).1
  rw [houtput] at hmove
  obtain ⟨token, htoken, hversion, hhash⟩ := hmove.issued_eq (hknows.1 step.input)
  refine ⟨token, htoken, step.before.shared.registry, ?_, hversion, hhash⟩
  rcases Run.before_mem hstep with hfirst | ⟨earlier, hearlier, hbefore⟩
  · rw [hfirst]
    exact List.mem_cons_self
  · rw [hbefore]
    exact List.mem_cons_of_mem _ (List.mem_map_of_mem hearlier)

end

/-! ### A refresh between the two reads -/

namespace Sample

def entryHash1 : String := "ca6276980932b6c0f606268e8699f34738c37fb83901ee22f0a9cf46fb0b7348"

def entryHash2 : String := "f19c6bcd4c478359474c1c553d884d826cc409cdca5055fb849abc852a9bc29b"

def heartbeatKey : Bytes := List.replicate 31 0 ++ [7]

/-- The environment of the registry, which also signs the heartbeat of either entry. -/
def heartbeatEnv : Env :=
  { registryEnv with secp256k1Sign := fun _ _ => some (List.replicate 64 1, 0) }

def heartbeatRequest : SignRequest :=
  { request .receiptHeartbeat with clientNonce := some "nonce-1" }

def heartbeatCalls : ℕ → HeartbeatCall
  | 0 => .registry (registryCalls 0)
  | 1 => .registry (registryCalls 2)
  | _ => .heartbeat {} heartbeatRequest

def heartbeatEnclave : Enclave :=
  { enclave ["binance"] .active with
    receipts := { key := some heartbeatKey } }

@[simp]
theorem heartbeatEnclave_version : heartbeatEnclave.registry.version = 1 := rfl

@[simp]
theorem heartbeatEnclave_limiter : heartbeatEnclave.limiter = {} := rfl

@[simp]
theorem heartbeatEnclave_seq : heartbeatEnclave.receipts.seq = ∅ := rfl

def heartbeatLimiter : RateLimiter := (({} : RateLimiter).check 60 1 0 customer).2

theorem entryHash_first :
    (identity ["binance"] .active).entryHash heartbeatEnv = some entryHash1 := by
  decide +kernel

theorem entryHash_second :
    (identity ["binance", "okx"] .active).entryHash heartbeatEnv = some entryHash2 := by
  decide +kernel

section

variable {s : Enclave} {caller : ResolvedIdentity} {nonce entryHash : String}

theorem beat_resolve :
    heartbeatSection heartbeatEnv (heartbeatCalls 2) .started s =
      (.idle, .resolved (resolveIdentity heartbeatEnv heartbeatRequest s), s) :=
  rfl

theorem beat_limit {venues : List String} (hlimiter : s.limiter = {}) :
    heartbeatSection heartbeatEnv (heartbeatCalls 2) (.resolved (some (identity venues .active))) s =
      (.idle, .limited (identity venues .active) "nonce-1",
        { s with limiter := heartbeatLimiter }) := by
  have hcheck : s.limiter.check heartbeatEnv.rateCapacity heartbeatEnv.ratePerSec 0
      (rateKey (some (identity venues .active))) = (true, heartbeatLimiter) := by
    rw [hlimiter]
    exact Prod.ext (by decide +kernel : (({} : RateLimiter).check 60 1 0 customer).1 = true) rfl
  have hnonce : heartbeatNonce heartbeatRequest = some "nonce-1" := by
    decide +kernel
  have hgate : tenantModeGate (identity venues .active) heartbeatRequest = .ok () := rfl
  simp only [heartbeatSection, heartbeatCalls, limiterSection, hcheck, hnonce, hgate, Bool.not_true,
    Bool.false_eq_true, if_false]

theorem beat_key (hhash : caller.entryHash heartbeatEnv = some entryHash)
    (hreceipts : s.receipts = heartbeatEnclave.receipts) :
    heartbeatSection heartbeatEnv (heartbeatCalls 2) (.limited caller nonce) s =
      (.idle, .keyed caller nonce heartbeatKey entryHash, s) := by
  simp only [heartbeatSection, heartbeatCalls, ReceiptStore.heartbeatKey, hreceipts,
    heartbeatEnclave, hhash]

theorem beat_count :
    heartbeatSection heartbeatEnv (heartbeatCalls 2) (.keyed caller nonce pk entryHash) s =
      (.idle, .counted caller nonce pk entryHash s.receipts.seq, s) :=
  rfl

theorem beat_issue {seq : SeqTable}
    (h : SeqTable.heartbeat heartbeatEnv heartbeatEnv.receiptSigner pk entryHash caller nonce 2 seq =
      .ok hb)
    (hversion : s.registry.version = 2) :
    heartbeatSection heartbeatEnv (heartbeatCalls 2) (.counted caller nonce pk entryHash seq) s =
      (.issued hb, .finished, s) := by
  simp only [heartbeatSection, heartbeatCalls, hversion, h]

theorem registrySection_heartbeatEnv (call : RegistryCall) (progress : RegistryProgress)
    (reg : Registry) :
    registrySection heartbeatEnv call progress reg =
      registrySection registryEnv call progress reg := by
  rw [heartbeatEnv]
  cases registryEnv
  cases call <;> cases progress <;> rfl

theorem refresh_challenge :
    heartbeatSection heartbeatEnv (heartbeatCalls 0) .started s =
      (.registry (.challenged (Text.hexEncode registryNonce)), .registry .finished,
        { s with registry := { s.registry with pendingNonce := some registryNonce } }) :=
  rfl

theorem refresh_check (hpending : s.registry.pendingNonce = some registryNonce) :
    heartbeatSection heartbeatEnv (heartbeatCalls 1) .started s =
      (.registry .checked,
        .registry (.checked registryNonce [refreshEntry ["binance", "okx"]]), s) := by
  simp only [heartbeatSection, heartbeatCalls, Enclave.registrySection,
    registrySection_heartbeatEnv, section_check2 hpending]

theorem refresh_install {nonce : Bytes} {entries : List RefreshEntry}
    (hversion : s.registry.version < 2) :
    heartbeatSection heartbeatEnv (heartbeatCalls 1) (.registry (.checked nonce entries)) s =
      (.registry (.installed 2), .registry .finished,
        { s with
          registry :=
            { entries := entries.map (Registry.resident registryEnv)
              version := 2
              pendingNonce :=
                if s.registry.pendingNonce = some nonce then none else s.registry.pendingNonce } }) := by
  simp only [heartbeatSection, heartbeatCalls, Enclave.registrySection,
    registrySection_heartbeatEnv, section_install2 hversion]

end

theorem resolve_first {reg : Registry} (h : reg.entries = heartbeatEnclave.registry.entries) :
    reg.resolve heartbeatEnv token = some (identity ["binance"] .active) := by
  rw [Registry.resolve_congr h]
  decide +kernel

theorem resolve_second {reg : Registry}
    (h : reg.entries = [Registry.resident registryEnv (refreshEntry ["binance", "okx"])]) :
    reg.resolve heartbeatEnv token = some (identity ["binance", "okx"] .active) := by
  rw [Registry.resolve_congr
    (show reg.entries = ({ entries := [_] } : Registry).entries from h)]
  decide +kernel

theorem exists_heartbeat {venues : List String} {entryHash : String}
    (h : (venues, entryHash) ∈ [(["binance"], entryHash1), (["binance", "okx"], entryHash2)]) :
    ∃ hb, SeqTable.heartbeat heartbeatEnv heartbeatEnv.receiptSigner heartbeatKey
        entryHash (identity venues .active) "nonce-1" 2 ∅ = .ok hb ∧
      hb.registryVersion = "2" ∧ hb.entryHash = entryHash := by
  have hall : ∀ e ∈ [(["binance"], entryHash1), (["binance", "okx"], entryHash2)],
      (SeqTable.heartbeat heartbeatEnv heartbeatEnv.receiptSigner heartbeatKey e.2
        (identity e.1 .active) "nonce-1" 2 ∅).isOk = true := by
    decide +kernel
  have hok := hall _ h
  cases hhb : SeqTable.heartbeat heartbeatEnv heartbeatEnv.receiptSigner heartbeatKey entryHash
    (identity venues .active) "nonce-1" 2 ∅ with
  | error e => simp [hhb, Except.isOk, Except.toBool] at hok
  | ok hb =>
    obtain ⟨sig, hsig⟩ := SeqTable.heartbeat_ok hhb
    have htwo : hb.registryVersion = "2" := by
      rw [hsig]
      rfl
    have hhash : hb.entryHash = entryHash := by
      rw [hsig]
      rfl
    exact ⟨hb, rfl, htwo, hhash⟩

/-- What the calls do in the order of the schedule. -/
def beats (schedule : List ℕ) : List HeartbeatStep :=
  heartbeatSteps heartbeatEnv heartbeatCalls heartbeatEnclave schedule

end Sample

open Sample in
/-- A refresh that is over before the heartbeat starts does not disturb it. -/
theorem heartbeat_of_one_registry_refreshed :
    (∀ step ∈ beats [0, 1, 1, 2, 2, 2, 2, 2],
      Undisturbed heartbeatEnv heartbeatCalls [0, 1, 1, 2, 2, 2, 2, 2] step) ∧
      ∃ step ∈ beats [0, 1, 1, 2, 2, 2, 2, 2],
        ∃ hb, step.output = .issued hb ∧ hb.registryVersion = "2" ∧
          ∃ token ∈ (heartbeatCalls step.input).token?,
            OfOneRegistry heartbeatEnv token
              (registriesInForce heartbeatEnclave (beats [0, 1, 1, 2, 2, 2, 2, 2])) hb := by
  obtain ⟨hb, hhb, htwo, -⟩ := exists_heartbeat
    (List.mem_cons_of_mem _ List.mem_cons_self :
      (["binance", "okx"], entryHash2) ∈ [(["binance"], entryHash1), _])
  have hresolve : ∀ s : Enclave, s.registry.entries =
        [Registry.resident registryEnv (refreshEntry ["binance", "okx"])] →
      resolveIdentity heartbeatEnv heartbeatRequest s =
        some (identity ["binance", "okx"] .active) :=
    fun s hs => resolve_second hs
  have hundisturbed : ∀ step ∈ beats [0, 1, 1, 2, 2, 2, 2, 2],
      Undisturbed heartbeatEnv heartbeatCalls [0, 1, 1, 2, 2, 2, 2, 2] step := by
    simp [beats, heartbeatSteps, Run.steps, Interleaving.step, Undisturbed, beat_resolve,
      refresh_challenge, refresh_check, refresh_install, hresolve, beat_limit,
      beat_key entryHash_second, beat_count, beat_issue hhb, HeartbeatProgress.installing?,
      HeartbeatProgress.identity?]
  have hissued : (2, .issued hb) ∈ (beats [0, 1, 1, 2, 2, 2, 2, 2]).map fun step =>
      (step.input, step.output) := by
    simp [beats, heartbeatSteps, Run.steps, Interleaving.step, beat_resolve, refresh_challenge,
      refresh_check, refresh_install, hresolve, beat_limit, beat_key entryHash_second, beat_count,
      beat_issue hhb]
  obtain ⟨step, hstep, heq⟩ := List.mem_map.mp hissued
  obtain ⟨-, houtput⟩ := Prod.mk.inj heq
  exact ⟨hundisturbed, step, hstep, hb, houtput, htwo,
    heartbeat_of_one_registry heartbeatEnclave [0, 1, 1, 2, 2, 2, 2, 2] hundisturbed step
      hstep hb houtput⟩

open Sample in
/-- A refresh that lands after the lookup and before the version is read: the heartbeat names
the second version and carries the digest of the entry in the first. -/
theorem heartbeat_mixes_registries :
    ∃ step ∈ beats [2, 0, 1, 1, 2, 2, 2, 2], ∃ hb, step.output = .issued hb ∧
      (heartbeatCalls step.input).token? = some token ∧
      ¬ OfOneRegistry heartbeatEnv token
        (registriesInForce heartbeatEnclave (beats [2, 0, 1, 1, 2, 2, 2, 2])) hb := by
  obtain ⟨hb, hhb, htwo, hfirst⟩ := exists_heartbeat
    (List.mem_cons_self : (["binance"], entryHash1) ∈ [(["binance"], entryHash1), _])
  have hresolve : resolveIdentity heartbeatEnv heartbeatRequest heartbeatEnclave =
      some (identity ["binance"] .active) := resolve_first rfl
  have hissued : (2, .issued hb) ∈ (beats [2, 0, 1, 1, 2, 2, 2, 2]).map fun step =>
      (step.input, step.output) := by
    simp [beats, heartbeatSteps, Run.steps, Interleaving.step, beat_resolve, refresh_challenge,
      refresh_check, refresh_install, hresolve, beat_limit, beat_key entryHash_first, beat_count,
      beat_issue hhb]
  have hforce : ∀ reg ∈ registriesInForce heartbeatEnclave (beats [2, 0, 1, 1, 2, 2, 2, 2]),
      reg.version = 1 ∨ reg.version = 2 ∧
        reg.entries = [Registry.resident registryEnv (refreshEntry ["binance", "okx"])] := by
    simp [registriesInForce, beats, heartbeatSteps, Run.steps, Interleaving.step, beat_resolve,
      refresh_challenge, refresh_check, refresh_install, hresolve, beat_limit,
      beat_key entryHash_first, beat_count, beat_issue hhb]
  obtain ⟨step, hstep, heq⟩ := List.mem_map.mp hissued
  obtain ⟨hinput, houtput⟩ := Prod.mk.inj heq
  refine ⟨step, hstep, hb, houtput, by rw [hinput]; rfl, ?_⟩
  rintro ⟨reg, hreg, hversion, hhash⟩
  rcases hforce reg hreg with hone | ⟨-, hentries⟩
  · rw [htwo, hone] at hversion
    exact absurd hversion (by decide)
  · rw [resolve_second hentries, Option.bind_some, entryHash_second, hfirst] at hhash
    exact absurd hhash (by decide +kernel)

end Signer
