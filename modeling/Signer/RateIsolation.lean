import Signer.CacheRuns
import Signer.RateBound
import Signer.RegistryTool

/-!
# The rate budgets of tenants and of strangers

Requests whose token does not resolve share one bucket. They are kept apart from the tenants'
buckets by its key alone, so a flood of them is nothing to a tenant unless the tenant's customer id
is that key. The tables of the limiter are never full here: the registry has few customers.
-/

namespace Signer

/-! ### A limiter with room for all its keys -/

namespace RateLimiter

variable {capacity rate now : Nat} {key k : String} {keys : Finset String} {s : RateLimiter}

/-- All keys are among these, and none is a ghost. -/
structure Within (keys : Finset String) (s : RateLimiter) : Prop where
  live : ∀ k ∈ s.buckets, k ∈ keys
  no_ghost : ∀ k, k ∉ s.ghost

def bucketFor (capacity now : Nat) (key : String) (s : RateLimiter) : Bucket :=
  (s.buckets.lookup key).getD { tokens := capacity, lastRefill := now }

theorem within_empty : Within keys {} where
  live k hk := absurd hk (AList.notMem_empty k)
  no_ghost := AList.notMem_empty

theorem Within.evictOldest_eq (h : s.Within keys) (hcard : keys.card ≤ maxTrackedKeys)
    (hkey : key ∈ keys)
    (hnew : key ∉ s.buckets) : s.evictOldest = s := by
  have hsubset : s.buckets.keys.toFinset ⊆ keys.erase key := by
    intro k hk
    have hlive : k ∈ s.buckets := AList.mem_keys.mpr (List.mem_toFinset.mp hk)
    exact Finset.mem_erase.mpr ⟨fun heq => hnew (heq ▸ hlive), h.live k hlive⟩
  have hlength : s.buckets.entries.length = s.buckets.keys.toFinset.card := by
    rw [List.toFinset_card_of_nodup s.buckets.keys_nodup]
    simp [AList.keys, List.keys]
  have hle := Finset.card_le_card hsubset
  rw [Finset.card_erase_of_mem hkey] at hle
  have hpos := Finset.card_pos.mpr ⟨key, hkey⟩
  rw [evictOldest, if_pos (by omega)]

theorem Within.lookup_makeLive (h : s.Within keys) (hcard : keys.card ≤ maxTrackedKeys)
    (hkey : key ∈ keys) :
    (s.makeLive capacity now key).buckets.lookup k =
      if k = key then some (s.bucketFor capacity now key) else s.buckets.lookup k := by
  by_cases hlive : key ∈ s.buckets
  · rw [makeLive_of_mem hlive]
    split
    · rename_i heq
      obtain ⟨b, hb⟩ := Option.isSome_iff_exists.mp (AList.lookup_isSome.mpr hlive)
      rw [heq, bucketFor, hb, Option.getD_some]
    · rfl
  · split
    · rename_i heq
      rw [heq, lookup_makeLive_of_unseen hlive (h.no_ghost key), bucketFor,
        AList.lookup_eq_none.mpr hlive, Option.getD_none]
    · rename_i hne
      rw [makeLive, if_neg hlive, h.evictOldest_eq hcard hkey hlive]
      exact AList.lookup_insert_ne hne

theorem Within.check_spec (h : s.Within keys) (hcard : keys.card ≤ maxTrackedKeys)
    (hkey : key ∈ keys) :
    (s.check capacity rate now key).1 =
        decide (1 ≤ refill capacity rate now (s.bucketFor capacity now key)) ∧
      ∀ k, (s.check capacity rate now key).2.buckets.lookup k =
        if k = key then some (spend capacity rate now (s.bucketFor capacity now key))
        else s.buckets.lookup k := by
  obtain ⟨b, hb, hcheck⟩ := check_eq capacity rate now key s
  rw [h.lookup_makeLive hcard hkey, if_pos rfl, Option.some.injEq] at hb
  subst hb
  rw [hcheck]
  refine ⟨rfl, fun k => ?_⟩
  split
  · rename_i heq
    rw [heq]
    exact AList.lookup_insert _
  · rename_i hne
    exact (AList.lookup_insert_ne hne).trans ((h.lookup_makeLive hcard hkey).trans (if_neg hne))

theorem Within.check (h : s.Within keys) (hcard : keys.card ≤ maxTrackedKeys) (hkey : key ∈ keys) :
    (s.check capacity rate now key).2.Within keys where
  live k hk := by
    by_cases heq : k = key
    · exact heq ▸ hkey
    · exact h.live k (mem_of_mem_check heq hk)
  no_ghost k hk := by
    obtain ⟨b, -, hcheck⟩ := check_eq capacity rate now key s
    rw [hcheck] at hk
    by_cases hlive : key ∈ s.buckets
    · rw [makeLive_of_mem hlive] at hk
      exact h.no_ghost k hk
    · rw [makeLive, if_neg hlive, h.evictOldest_eq hcard hkey hlive] at hk
      exact h.no_ghost k (AList.mem_erase.mp hk).2

end RateLimiter

/-! ### What a request does to the limiter -/

def reachesLimiter (env : Env) (amb : Ambient) (req : SignRequest) : Bool :=
  (bypassHandler env amb req).isNone ∧ ¬req.protoVersion < requiredProtoVersion

section

variable {env : Env} {amb : Ambient} {req : SignRequest} {s t : Enclave}

theorem tenantInvariant_registry_limiter {registry : Registry} {limiter : RateLimiter} :
    TenantInvariant env fun s => s.registry = registry ∧ s.limiter = limiter where
  get _ _ _ hs := hs
  put _ _ _ _ _ _ _ hs := hs
  pins _ _ _ _ hs := hs
  ledger _ _ hs := hs
  receipts _ _ hs := hs

theorem handle_of_reachesLimiter (h : reachesLimiter env amb req = true) :
    (handle env amb req s).2.registry = s.registry ∧
      (handle env amb req s).2.limiter = (checkRate env amb req s).2 := by
  obtain ⟨hbypass, hversion⟩ := of_decide_eq_true h
  rw [Option.isNone_iff_eq_none] at hbypass
  rw [handle, hbypass]
  dsimp only
  rw [if_neg hversion]
  split
  · exact ⟨rfl, rfl⟩
  · split
    · exact ⟨rfl, rfl⟩
    · exact answer_keeps_tenant tenantInvariant_registry_limiter ⟨rfl, rfl⟩

theorem limiter_handle_of_not_reachesLimiter (h : reachesLimiter env amb req = false) :
    (handle env amb req s).2.limiter = s.limiter := by
  unfold handle
  split
  · rename_i handler hbypass
    exact serve_keeps (I := fun s' => s'.limiter = s.limiter)
      (bypassHandler_keeps (fun _ _ hs => hs) (fun _ _ _ _ _ hs => hs) hbypass) rfl
  · rename_i hbypass
    rw [reachesLimiter, hbypass, decide_eq_false_iff_not] at h
    rw [if_pos (by simpa using h)]

theorem resolveIdentity_congr (h : s.registry.entries = t.registry.entries) :
    resolveIdentity env req s = resolveIdentity env req t := by
  have hresolve : s.registry.resolve env = t.registry.resolve env := by
    funext token
    rw [Registry.resolve, Registry.resolve, h]
  rw [resolveIdentity, resolveIdentity, hresolve]

end

/-! ### Two runs of the service -/

structure HandleCall where
  amb : Ambient
  req : SignRequest

abbrev HandleStep := Run.Step HandleCall Enclave Served

/-- What `handle` does on a list of calls. -/
def handleSteps (env : Env) (s : Enclave) (calls : List HandleCall) : List HandleStep :=
  Run.steps (fun call => handle env call.amb call.req) s calls

def rateDecision (env : Env) (step : HandleStep) : Option Bool :=
  if reachesLimiter env step.input.amb step.input.req ∧
      (resolveIdentity env step.input.req step.before).isSome then
    some (checkRate env step.input.amb step.input.req step.before).1
  else none

def tenantDecisions (env : Env) (s : Enclave) (calls : List HandleCall) : List Bool :=
  (handleSteps env s calls).filterMap (rateDecision env)

def Registry.customers (reg : Registry) : Finset String :=
  (reg.entries.map TenantEntry.customerId).toFinset

def Registry.rateKeys (reg : Registry) : Finset String := insert "unauthenticated" reg.customers

def RunsUnder (env : Env) (reg : Registry) (s : Enclave) (calls : List HandleCall) : Prop :=
  ∀ step ∈ handleSteps env s calls, step.after.registry.entries = reg.entries

/-- Requests without a tenant change no decision on a tenant's request. -/
def RateIsolated (env : Env) (reg : Registry) : Prop :=
  ∀ s calls flooded, s.registry.entries = reg.entries → s.limiter.Within reg.rateKeys →
    Run.Inserted (fun call => call.req.opaqueToken.bind (reg.resolve env) = none) calls flooded →
    RunsUnder env reg s calls → RunsUnder env reg s flooded →
    tenantDecisions env s calls = tenantDecisions env s flooded

section

variable {env : Env} {amb : Ambient} {req : SignRequest} {reg : Registry} {s t : Enclave}

theorem Registry.card_rateKeys (h : reg.customers.card < maxTrackedKeys - 1) :
    reg.rateKeys.card ≤ maxTrackedKeys := by
  have hinsert := Finset.card_insert_le "unauthenticated" reg.customers
  rw [rateKeys]
  omega

theorem resolveIdentity_eq_resolve (h : s.registry.entries = reg.entries) :
    resolveIdentity env req s = req.opaqueToken.bind (reg.resolve env) :=
  resolveIdentity_congr (t := { registry := reg }) h

theorem rateKey_mem_rateKeys {token : Option String} :
    rateKey (token.bind (reg.resolve env)) ∈ reg.rateKeys := by
  cases hidentity : token.bind (reg.resolve env) with
  | none => exact Finset.mem_insert_self _ _
  | some identity =>
    obtain ⟨token, -, hresolve⟩ := Option.bind_eq_some_iff.mp hidentity
    obtain ⟨e, hfind, rfl⟩ := Option.map_eq_some_iff.mp hresolve
    have he : e ∈ reg.entries := List.mem_reverse.mp (List.mem_of_find?_eq_some hfind)
    exact Finset.mem_insert_of_mem (List.mem_toFinset.mpr (List.mem_map_of_mem he))

structure AgreeOnTenants (reg : Registry) (s t : Enclave) : Prop where
  left : s.limiter.Within reg.rateKeys
  right : t.limiter.Within reg.rateKeys
  lookup : ∀ k ≠ "unauthenticated", s.limiter.buckets.lookup k = t.limiter.buckets.lookup k

theorem checkRate_eq (h : s.registry.entries = reg.entries) :
    checkRate env amb req s = s.limiter.check env.rateCapacity env.ratePerSec amb.rateNow
      (rateKey (req.opaqueToken.bind (reg.resolve env))) := by
  rw [checkRate, resolveIdentity_eq_resolve h]

variable (hcard : reg.rateKeys.card ≤ maxTrackedKeys) (hs : s.registry.entries = reg.entries)
  (ht : t.registry.entries = reg.entries)

include hcard

include hs in
theorem within_handle (h : s.limiter.Within reg.rateKeys) :
    (handle env amb req s).2.limiter.Within reg.rateKeys := by
  cases hreaches : reachesLimiter env amb req with
  | false => rwa [limiter_handle_of_not_reachesLimiter hreaches]
  | true =>
    rw [(handle_of_reachesLimiter hreaches).2, checkRate_eq hs]
    exact h.check hcard rateKey_mem_rateKeys

include hs in
theorem lookup_handle (h : s.limiter.Within reg.rateKeys) (k : String) :
    (handle env amb req s).2.limiter.buckets.lookup k =
      if reachesLimiter env amb req = true ∧
        k = rateKey (req.opaqueToken.bind (reg.resolve env)) then
        some (RateLimiter.spend env.rateCapacity env.ratePerSec amb.rateNow
          (s.limiter.bucketFor env.rateCapacity amb.rateNow k))
      else s.limiter.buckets.lookup k := by
  cases hreaches : reachesLimiter env amb req with
  | false => rw [limiter_handle_of_not_reachesLimiter hreaches, if_neg (by simp)]
  | true =>
    rw [(handle_of_reachesLimiter hreaches).2, checkRate_eq hs,
      (h.check_spec hcard rateKey_mem_rateKeys).2 k]
    simp only [true_and]
    split
    · rename_i hk
      rw [hk]
    · rfl

include hs ht in
theorem AgreeOnTenants.keep (h : AgreeOnTenants reg s t) :
    AgreeOnTenants reg (handle env amb req s).2 (handle env amb req t).2 where
  left := within_handle hcard hs h.left
  right := within_handle hcard ht h.right
  lookup k hk := by
    rw [lookup_handle hcard hs h.left, lookup_handle hcard ht h.right, RateLimiter.bucketFor,
      RateLimiter.bucketFor, h.lookup k hk]

include ht in
theorem AgreeOnTenants.insert
    (hstranger : req.opaqueToken.bind (reg.resolve env) = none)
    (h : AgreeOnTenants reg s t) : AgreeOnTenants reg s (handle env amb req t).2 where
  left := h.left
  right := within_handle hcard ht h.right
  lookup k hk := by
    rw [lookup_handle hcard ht h.right, hstranger, if_neg (fun hkey => hk hkey.2), h.lookup k hk]

theorem check_of_no_capacity (hcapacity : env.rateCapacity = 0)
    (hs : s.registry.entries = reg.entries) (h : s.limiter.Within reg.rateKeys) :
    (checkRate env amb req s).1 = false := by
  rw [checkRate_eq hs, (h.check_spec hcard rateKey_mem_rateKeys).1, decide_eq_false_iff_not, not_le,
    hcapacity]
  refine lt_of_le_of_lt RateLimiter.refill_le_capacity ?_
  norm_num

theorem AgreeOnTenants.rateDecision_eq
    (hcondition : env.rateCapacity = 0 ∨
      ∀ token identity, reg.resolve env token = some identity →
      identity.customerId ≠ "unauthenticated")
    (hs : s.registry.entries = reg.entries) (ht : t.registry.entries = reg.entries)
    (h : AgreeOnTenants reg s t) {served served' : Served} {s' t' : Enclave} :
    rateDecision env ⟨⟨amb, req⟩, s, served, s'⟩ =
      rateDecision env ⟨⟨amb, req⟩, t, served', t'⟩ := by
  simp only [rateDecision, resolveIdentity_eq_resolve hs, resolveIdentity_eq_resolve ht]
  split
  · rename_i htenant
    congr 1
    rcases hcondition with hcapacity | hcustomer
    · rw [check_of_no_capacity hcard hcapacity hs h.left,
        check_of_no_capacity hcard hcapacity ht h.right]
    · obtain ⟨identity, hidentity⟩ := Option.isSome_iff_exists.mp htenant.2
      obtain ⟨token, -, hresolve⟩ := Option.bind_eq_some_iff.mp hidentity
      have hlookup := h.lookup _ (hcustomer token identity hresolve)
      rw [checkRate_eq hs, checkRate_eq ht, (h.left.check_spec hcard rateKey_mem_rateKeys).1,
        (h.right.check_spec hcard rateKey_mem_rateKeys).1, hidentity, rateKey, Option.elim_some,
        RateLimiter.bucketFor, RateLimiter.bucketFor, hlookup]
  · rfl

omit hcard

theorem rateIsolated_of (hfew : reg.customers.card < maxTrackedKeys - 1)
    (hcondition : env.rateCapacity = 0 ∨
      ∀ token identity, reg.resolve env token = some identity →
      identity.customerId ≠ "unauthenticated") :
    RateIsolated env reg := by
  intro s calls flooded hs hwithin hinserted hcalls hflooded
  have hcard := Registry.card_rateKeys hfew
  refine Run.filterMap_steps_of_inserted (I := fun s : Enclave => s.registry.entries = reg.entries)
    (R := AgreeOnTenants reg) (fun call s t hs ht h => ?_)
    (fun call s t hstranger ht h => ?_) hinserted
    ⟨hwithin, hwithin, fun _ _ => rfl⟩ hs hs hcalls hflooded
  · exact ⟨h.keep hcard hs ht, h.rateDecision_eq hcard hcondition hs ht⟩
  · refine ⟨h.insert hcard ht hstranger, ?_⟩
    simp [rateDecision, resolveIdentity_eq_resolve ht, hstranger]

/-! ### A flood that drains a tenant's bucket -/

def probe (token : Option String) : HandleCall where
  amb := {}
  req := { action := .sign, protoVersion := requiredProtoVersion, opaqueToken := token }

theorem reachesLimiter_probe {token : Option String} :
    reachesLimiter env (probe token).amb (probe token).req = true := rfl

theorem runsUnder_probes {tokens : List (Option String)} (hs : s.registry.entries = reg.entries) :
    RunsUnder env reg s (tokens.map probe) := by
  intro step hstep
  refine (Run.invariant (I := fun s : Enclave => s.registry.entries = reg.entries) hs
    (fun step hstep hbefore => ?_) step hstep).2
  obtain ⟨hinput, hmachine⟩ := Run.mem_steps hstep
  obtain ⟨token, -, hprobe⟩ := List.mem_map.mp hinput
  have hafter : step.after = (handle env step.input.amb step.input.req step.before).2 := by rw [hmachine]
  rw [hafter, ← hprobe, (handle_of_reachesLimiter reachesLimiter_probe).1]
  exact hbefore

theorem RateLimiter.refill_of_no_time {capacity rate : Nat} {b : Bucket} (h : b.tokens ≤ capacity) :
    refill capacity rate b.lastRefill b = b.tokens := by
  simp [refill, h]

theorem rateDecision_stranger {served : Served} {s' : Enclave} :
    rateDecision env ⟨probe none, s, served, s'⟩ = none := by
  simp [rateDecision, resolveIdentity, probe]

variable {token : String} {identity : ResolvedIdentity} (hwithin : s.limiter.Within reg.rateKeys)
  (hcapacity : env.rateCapacity ≠ 0) (hresolve : reg.resolve env token = some identity)
  (hcustomer : identity.customerId = "unauthenticated")

include hcard hresolve hcustomer

include hs hwithin in
theorem tenantDecisions_tenant :
    tenantDecisions env s ([some token].map probe) =
      [decide (1 ≤ RateLimiter.refill env.rateCapacity env.ratePerSec 0
        (s.limiter.bucketFor env.rateCapacity 0 "unauthenticated"))] := by
  have hidentity : (probe (some token)).req.opaqueToken.bind (reg.resolve env) = some identity :=
    hresolve
  have hkey : "unauthenticated" ∈ reg.rateKeys := Finset.mem_insert_self _ _
  have hdecision : (s.limiter.check env.rateCapacity env.ratePerSec 0 "unauthenticated").1 = _ :=
    (hwithin.check_spec hcard hkey).1
  simp only [tenantDecisions, handleSteps, List.map_cons, List.map_nil, Run.steps,
    List.filterMap_cons,
    List.filterMap_nil, rateDecision, resolveIdentity_eq_resolve hs, checkRate_eq hs, hidentity,
    rateKey,
    Option.elim_some, hcustomer, reachesLimiter_probe, Option.isSome_some, and_self, if_true]
  exact congrArg (fun decision => [decision]) hdecision

include hcapacity in
theorem tenantDecisions_alone :
    tenantDecisions env { registry := reg } ([some token].map probe) = [true] := by
  have hbucket : ({} : RateLimiter).bucketFor env.rateCapacity 0 "unauthenticated" =
      { tokens := env.rateCapacity, lastRefill := 0 } := rfl
  have hrefill : RateLimiter.refill env.rateCapacity env.ratePerSec 0
      { tokens := env.rateCapacity, lastRefill := 0 } = env.rateCapacity :=
    RateLimiter.refill_of_no_time le_rfl
  rw [tenantDecisions_tenant hcard rfl RateLimiter.within_empty hresolve hcustomer, hbucket,
    hrefill]
  simp [Nat.one_le_iff_ne_zero, hcapacity]

include hs hwithin in
theorem tenantDecisions_flooded {n : Nat} (hn : n ≤ env.rateCapacity)
    (hbucket : s.limiter.bucketFor env.rateCapacity 0 "unauthenticated" =
      { tokens := n, lastRefill := 0 }) :
    tenantDecisions env s ((List.replicate n none ++ [some token]).map probe) = [false] := by
  have hrefill : RateLimiter.refill env.rateCapacity env.ratePerSec 0
      { tokens := n, lastRefill := 0 } = n :=
    RateLimiter.refill_of_no_time (Nat.cast_le.mpr hn)
  induction n generalizing s with
  | zero =>
    rw [List.replicate_zero, List.nil_append,
      tenantDecisions_tenant hcard hs hwithin hresolve hcustomer, hbucket, hrefill]
    norm_num
  | succ n ih =>
    -- the first stranger takes a token
    have hspend : (handle env (probe none).amb
        (probe none).req s).2.limiter.bucketFor env.rateCapacity 0
        "unauthenticated" = { tokens := n, lastRefill := 0 } := by
      rw [RateLimiter.bucketFor, lookup_handle hcard hs hwithin, if_pos ⟨reachesLimiter_probe, rfl⟩,
        Option.getD_some, RateLimiter.spend]
      simp only [show (probe none).amb.rateNow = 0 from rfl, hbucket, hrefill]
      simp
    have hrest := ih (by rw [(handle_of_reachesLimiter reachesLimiter_probe).1]; exact hs)
      (within_handle hcard hs hwithin) (by omega) hspend
      (RateLimiter.refill_of_no_time (Nat.cast_le.mpr (by omega)))
    rw [tenantDecisions, handleSteps] at hrest ⊢
    rw [List.replicate_succ, List.cons_append, List.map_cons, Run.steps, List.filterMap_cons,
      rateDecision_stranger]
    exact hrest

omit hcard hresolve hcustomer

theorem inserted_probes {P : HandleCall → Prop} (hP : P (probe none))
    {tokens : List (Option String)} (n : Nat) :
    Run.Inserted P (tokens.map probe) ((List.replicate n none ++ tokens).map probe) := by
  induction n with
  | zero =>
    induction tokens with
    | nil => exact .nil
    | cons token tokens ih => exact .keep _ ih
  | succ n ih => exact .insert _ hP ih

/-- Requests of strangers change no decision on a tenant's request, exactly if no token resolves to
the customer id that is the strangers' key. (A limiter that grants nothing has nothing to lose.) -/
theorem rateIsolated_iff (hfew : reg.customers.card < maxTrackedKeys - 1) :
    RateIsolated env reg ↔ env.rateCapacity = 0 ∨
      ∀ token identity, reg.resolve env token = some identity →
      identity.customerId ≠ "unauthenticated" := by
  refine ⟨fun h => ?_, rateIsolated_of hfew⟩
  by_contra hcondition
  push Not at hcondition
  obtain ⟨hcapacity, token, identity, hresolve, hcustomer⟩ := hcondition
  have hcard := Registry.card_rateKeys hfew
  have hsame := h { registry := reg } ([some token].map probe)
    ((List.replicate env.rateCapacity none ++ [some token]).map probe) rfl RateLimiter.within_empty
    (inserted_probes (P := fun call => call.req.opaqueToken.bind (reg.resolve env) = none) rfl _)
    (runsUnder_probes rfl) (runsUnder_probes rfl)
  rw [tenantDecisions_alone hcard hcapacity hresolve hcustomer,
    tenantDecisions_flooded hcard rfl RateLimiter.within_empty hresolve hcustomer le_rfl rfl] at hsame
  cases hsame

end

namespace Sample

def strangerRegistry : SignedRegistry where
  entries := [{ token := token, customerId := "unauthenticated", allowedVenues := ["binance"] }]
  json := Text.bytes ("[\x7b\"token\":\"sample-token\",\"customer_id\":\"unauthenticated\"," ++
    "\"allowed_venues\":[\"binance\"]\x7d]")
  digest := Text.beBytes 32 0xfad9ea624b2a3488be4a9db079c21078aeb683b2f5f80cc3a59b95a77e4ba9ac
  signature :=
    Text.beBytes 32 0xd643e4c92a4ca18ea65d2c070a0ed0175aa0c1f619de90d7cbe74c1b8933d5fd ++
      Text.beBytes 32 0x1d8e69037d13609d53e7965cd0297dbb598d1acf1458fbc610f57cae4875bb0c

end Sample

/-- Such a registry is accepted. Its tenant's request is granted, and is refused if as many requests
without a token come before it as the bucket has tokens. -/
theorem flood_drains_tenant :
    ∃ reg', Sample.challenged.refresh (Sample.controlEnv [Sample.strangerRegistry])
        Sample.strangerRegistry.json Sample.goldenNonceHex 1 Sample.strangerRegistry.signed.signatureHex =
        (.ok 1, reg') ∧
      reg'.customers.card < maxTrackedKeys - 1 ∧
      tenantDecisions (Sample.controlEnv [Sample.strangerRegistry]) { registry := reg' }
        ([some Sample.token].map probe) = [true] ∧
      tenantDecisions (Sample.controlEnv [Sample.strangerRegistry]) { registry := reg' }
        ((List.replicate 60 none ++ [some Sample.token]).map probe) = [false] := by
  obtain ⟨reg', hrefresh, hentries⟩ := Sample.refresh_controlEnv Sample.strangerRegistry rfl
    (by decide) ⟨[()], by decide +kernel⟩
  have hcustomers : reg'.customers = {"unauthenticated"} := by
    rw [Registry.customers, hentries]
    rfl
  have hfew : reg'.customers.card < maxTrackedKeys - 1 := by
    rw [hcustomers]
    decide
  have hresolve : reg'.resolve (Sample.controlEnv [Sample.strangerRegistry]) Sample.token =
      some { customerId := "unauthenticated", allowedVenues := ["binance"], mode := .active } := by
    rw [Registry.resolve, hentries]
    rfl
  have hcard := Registry.card_rateKeys hfew
  refine ⟨reg', hrefresh, hfew, ?_, ?_⟩
  · exact tenantDecisions_alone hcard (by decide) hresolve rfl
  · exact tenantDecisions_flooded hcard rfl RateLimiter.within_empty hresolve rfl le_rfl rfl

/-- The tenant of the sample registry is safe from strangers. -/
theorem rateIsolated_sample :
    RateIsolated (Sample.env Sample.bareBlob) (Sample.enclave ["binance"] .active).registry := by
  refine (rateIsolated_iff (by decide)).mpr (.inr fun token identity hresolve => ?_)
  obtain ⟨e, hfind, rfl⟩ := Option.map_eq_some_iff.mp hresolve
  obtain rfl := List.mem_singleton.mp (List.mem_reverse.mp (List.mem_of_find?_eq_some hfind))
  decide

end Signer
