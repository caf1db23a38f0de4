import Signer.Gateway.TenantState
import Signer.Service.Run

/-!
# The tenant switch over time

Operators, clients and automation move customers, and unwind jobs update their status, in any order
and with writes that fail or succeed.
-/

namespace Signer.Gateway

inductive TenantCall where
  | transition (customer : String) (target : TenantState) (actor : Actor) (reason : String)
      (now : Nat) (writes : Bool)
  | updateReconcile (customer : String) (f : ReconcileStatus → ReconcileStatus) (now : Nat)
      (writes : Bool)
  | bootProbe (writes : Bool)

inductive TenantAnswer where
  | transition (result : Except TransitionError Transition)
  | updateReconcile (updated : Bool)
  | bootProbe (ok : Bool)

def TenantCall.ByOperator (customer : String) : TenantCall → Prop
  | transition who _ actor _ _ _ => who = customer ∧ actor = .operator
  | _ => False

def TenantCall.ByAutomation : TenantCall → Prop
  | transition _ _ actor _ _ _ => actor = .automation
  | _ => False

namespace TenantTable

def call (codec : AtomicFile.Codec StateFile) :
    TenantCall → TenantTable → TenantAnswer × TenantTable
  | .transition customer target actor reason now writes, table =>
    let done := table.transition codec writes customer target actor reason now
    (.transition done.1, done.2)
  | .updateReconcile customer f now writes, table =>
    let done := table.updateReconcile codec writes customer f now
    (.updateReconcile done.1, done.2)
  | .bootProbe writes, table =>
    let done := table.bootProbe codec writes
    (.bootProbe done.1, done.2)

/-- The store is what a process starts with on this file. -/
def Boots (codec : AtomicFile.Codec StateFile) (table : TenantTable) : Prop :=
  table.store = .inMemory ∨
    ∃ path reads, TenantStateStore.load codec reads path table.file = some table.store

def OnFile (codec : AtomicFile.Codec StateFile) (table : TenantTable) : Prop :=
  ∀ path, ∃ restarted, TenantStateStore.load codec true path table.file = some restarted ∧
    restarted.inner = table.store.inner

def Honest (codec : AtomicFile.Codec StateFile) (table : TenantTable) : Prop :=
  table.store.path.isSome = true → table.store.durable = true → table.OnFile codec

variable {codec : AtomicFile.Codec StateFile} {table : TenantTable} {customer : String}
  {call : TenantCall} {writes : Bool}

/-! ### One call -/

theorem stateOf_bootProbe :
    (table.bootProbe codec writes).2.store.stateOf customer = table.store.stateOf customer := by
  unfold bootProbe
  split
  · rfl
  · dsimp only
    split <;> rfl

theorem stateOf_le_call (h : ¬ call.ByOperator customer) :
    table.store.stateOf customer ≤ (table.call codec call).2.store.stateOf customer := by
  cases call with
  | transition who target actor reason now writes =>
    rcases transition_cases codec writes who target actor reason now table with
      ⟨hsame, -⟩ | ⟨hmoved, -, hup, -⟩
    · simp [TenantTable.call, hsame]
    · simp only [TenantTable.call, hmoved, stateOf_insertRecord]
      split
      · rename_i hwho
        subst hwho
        exact (hup fun hactor => h ⟨rfl, hactor⟩).le
      · exact le_rfl
  | updateReconcile who f now writes =>
    simp [TenantTable.call, stateOf_updateReconcile]
  | bootProbe writes => simp [TenantTable.call, stateOf_bootProbe]

theorem stateOf_call_byAutomation (h : call.ByAutomation) :
    (table.call codec call).2.store.stateOf customer = table.store.stateOf customer ∨
      (table.call codec call).2.store.stateOf customer = .cancelOnly := by
  cases call with
  | transition who target actor reason now writes =>
    rcases transition_cases codec writes who target actor reason now table with
      ⟨hsame, -⟩ | ⟨hmoved, -, -, hscope⟩
    · exact .inl (by simp [TenantTable.call, hsame])
    · simp only [TenantTable.call, hmoved, stateOf_insertRecord]
      split
      · exact .inr (hscope h)
      · exact .inl rfl
  | updateReconcile who f now writes => cases h
  | bootProbe writes => cases h

/-! ### The file -/

theorem onFile_of_load {file : Option Bytes} {store : TenantStateStore} {path : String}
    {reads : Bool} (h : TenantStateStore.load codec reads path file = some store) :
    (TenantTable.mk store file).OnFile codec := by
  intro other
  rcases AtomicFile.load_eq_or_failed codec reads file with hsame | hfailed
  · unfold TenantStateStore.load at h ⊢
    rw [hsame] at h
    cases hload : AtomicFile.load codec true file with
    | missing => exact ⟨_, rfl, by rw [hload] at h; cases h; rfl⟩
    | failed => rw [hload] at h; cases h
    | value parsed => exact ⟨_, rfl, by rw [hload] at h; cases h; rfl⟩
  · rw [TenantStateStore.load, hfailed] at h
    cases h

theorem onFile_of_stored (hcodec : codec.RoundTrip) {file : Option Bytes}
    {store : TenantStateStore}
    (h : (AtomicFile.store codec writes { version := 1, tenants := store.inner } file).1 = true) :
    (TenantTable.mk store
      (AtomicFile.store codec writes { version := 1, tenants := store.inner } file).2).OnFile
        codec := by
  intro path
  refine ⟨{ inner := store.inner, path := some path, durable := true }, ?_, rfl⟩
  simp [TenantStateStore.load, AtomicFile.load_store hcodec h]

theorem honest_of_boots (h : table.Boots codec) : table.Honest codec := by
  intro hpath hdurable
  rcases h with hmemory | ⟨path, reads, hload⟩
  · rw [hmemory] at hpath
    cases hpath
  · exact onFile_of_load hload

theorem honest_persistLocked (hcodec : codec.RoundTrip) :
    (table.persistLocked codec writes).Honest codec := by
  intro hpath hdurable
  unfold persistLocked at hpath hdurable ⊢
  cases hsome : table.store.path with
  | none =>
    rw [hsome] at hpath
    simp [hsome] at hpath
  | some path =>
    rw [hsome] at hdurable
    exact onFile_of_stored hcodec hdurable

theorem honest_insertRecord (hcodec : codec.RoundTrip) {record : TenantRecord} :
    (table.insertRecord codec writes customer record).Honest codec :=
  honest_persistLocked hcodec

theorem honest_call (hcodec : codec.RoundTrip) (h : table.Honest codec) :
    (table.call codec call).2.Honest codec := by
  cases call with
  | transition who target actor reason now writes =>
    rcases transition_cases codec writes who target actor reason now table with
      ⟨hsame, -⟩ | ⟨hmoved, -⟩
    · simpa [TenantTable.call, hsame] using h
    · simpa [TenantTable.call, hmoved] using honest_insertRecord hcodec
  | updateReconcile who f now writes =>
    rcases updateReconcile_cases codec writes who f now table with ⟨-, hsame⟩ | ⟨record, -, hnew⟩
    · simpa [TenantTable.call, hsame] using h
    · simpa [TenantTable.call, hnew] using honest_insertRecord hcodec
  | bootProbe writes =>
    simp only [TenantTable.call]
    unfold bootProbe
    cases hpath : table.store.path with
    | none => exact h
    | some path =>
      dsimp only
      split
      · rename_i hstored
        intro _ _
        exact onFile_of_stored hcodec hstored
      · rename_i hfailed
        rw [AtomicFile.store_of_failed (Bool.eq_false_iff.mpr hfailed)]
        exact h

/-! ### All calls -/

def reached (codec : AtomicFile.Codec StateFile) (table : TenantTable) (calls : List TenantCall) :
    List TenantTable :=
  table :: (Run.steps (TenantTable.call codec) table calls).map Run.Step.after

theorem honest_of_mem_reached (hcodec : codec.RoundTrip) (h : table.Honest codec)
    {calls : List TenantCall} {now : TenantTable} (hnow : now ∈ reached codec table calls) :
    now.Honest codec := by
  rcases List.mem_cons.mp hnow with rfl | hstep
  · exact h
  · obtain ⟨step, hmem, rfl⟩ := List.mem_map.mp hstep
    refine (Run.invariant h (fun later hlater hbefore => ?_) step hmem).2
    have hcall := (Run.mem_steps hlater).2
    have hafter : later.after = (later.before.call codec later.input).2 := by rw [hcall]
    rw [hafter]
    exact honest_call hcodec hbefore

theorem stateOf_le_of_infix {calls : List TenantCall}
    {first : Run.Step TenantCall TenantTable TenantAnswer}
    {rest : List (Run.Step TenantCall TenantTable TenantAnswer)}
    (hstretch : first :: rest <:+: Run.steps (TenantTable.call codec) table calls)
    (hother : ∀ step ∈ first :: rest, ¬ step.input.ByOperator customer)
    {step : Run.Step TenantCall TenantTable TenantAnswer} (hstep : step ∈ first :: rest) :
    first.before.store.stateOf customer ≤ step.after.store.stateOf customer := by
  obtain ⟨stretch, hrun⟩ := Run.exists_steps_of_infix hstretch
  rw [hrun] at hstep hother
  refine (Run.invariant (I := fun now : TenantTable =>
    first.before.store.stateOf customer ≤ now.store.stateOf customer) le_rfl
    (fun later hlater hbefore => ?_) step hstep).2
  have hcall := (Run.mem_steps hlater).2
  have hafter : later.after = (later.before.call codec later.input).2 := by rw [hcall]
  rw [hafter]
  exact hbefore.trans (stateOf_le_call (hother later hlater))

/-- A stop holds until an operator lifts it, and a store that calls itself durable survives a
restart: in every run of calls, with writes that fail at will, a stretch without an operator's
transition of a customer never takes the customer down, automation moves a customer to cancel-only
or not at all, and where the flag of a store with a file is set, loading the file yields the table
in memory, so that a restart moves nobody. -/
theorem stop_holds_and_durable_is_on_file (hcodec : codec.RoundTrip) (hboots : table.Boots codec)
    (calls : List TenantCall) :
    (∀ customer first rest,
      first :: rest <:+: Run.steps (TenantTable.call codec) table calls →
      (∀ step ∈ first :: rest, ¬ step.input.ByOperator customer) →
      ∀ step ∈ first :: rest,
        first.before.store.stateOf customer ≤ step.after.store.stateOf customer) ∧
    (∀ step ∈ Run.steps (TenantTable.call codec) table calls, step.input.ByAutomation →
      ∀ customer, step.after.store.stateOf customer = step.before.store.stateOf customer ∨
        step.after.store.stateOf customer = .cancelOnly) ∧
    ∀ now ∈ reached codec table calls, ∀ path, now.store.path = some path →
      now.store.durable = true →
      ∃ restarted, TenantStateStore.load codec true path now.file = some restarted ∧
        restarted.inner = now.store.inner ∧
        ∀ customer, restarted.stateOf customer = now.store.stateOf customer := by
  refine ⟨fun customer first rest hstretch hother step hstep =>
    stateOf_le_of_infix hstretch hother hstep, fun step hstep hauto customer => ?_,
    fun now hnow path hpath hdurable => ?_⟩
  · have hcall := (Run.mem_steps hstep).2
    have hafter : step.after = (step.before.call codec step.input).2 := by rw [hcall]
    rw [hafter]
    exact stateOf_call_byAutomation hauto
  · have hhonest := honest_of_mem_reached hcodec (honest_of_boots hboots) hnow
    obtain ⟨restarted, hload, hinner⟩ := hhonest (by rw [hpath]; rfl) hdurable path
    exact ⟨restarted, hload, hinner, fun customer => by
      rw [TenantStateStore.stateOf, TenantStateStore.stateOf, hinner]⟩

def haltedFile : StateFile where
  version := 1
  tenants := (∅ : Tenants).insert "acme"
    { state := .halted, sinceUnix := 1700000000, actor := .operator, reason := "stop",
      reconcile := some (.pending 1700000000) }

def haltedText : Bytes :=
  Text.bytes <| "\x7b\n  \"version\": 1,\n  \"tenants\": \x7b\n    \"acme\": \x7b\n" ++
    "      \"state\": \"halted\",\n      \"since_unix\": 1700000000,\n" ++
    "      \"by\": \"operator\",\n      \"reason\": \"stop\",\n" ++
    "      \"reconcile\": \x7b\n        \"phase\": \"pending\",\n" ++
    "        \"started_unix\": 1700000000,\n        \"finished_unix\": null,\n" ++
    "        \"rounds\": 0,\n        \"venues\": \x7b\x7d,\n" ++
    "        \"incident_path\": null\n      \x7d\n    \x7d\n  \x7d\n\x7d"

def haltCalls : List TenantCall :=
  [.transition "acme" .halted .operator " stop " 1700000000 true,
    .transition "acme" .cancelOnly .client "less" 1700000001 true]

def firstBoot : TenantTable where
  store := { inner := ∅, path := some "/var/lib/signer/tenant-state.json", durable := true }
  file := none

def haltedCodec : AtomicFile.Codec StateFile := .ofTable [(haltedFile, haltedText)]

def haltedTable : TenantTable where
  store := { firstBoot.store with inner := haltedFile.tenants }
  file := some haltedText

theorem steps_haltCalls :
    (Run.steps (TenantTable.call haltedCodec) firstBoot haltCalls).map Run.Step.after =
      [haltedTable, haltedTable] := by
  have hmoved : (firstBoot.call haltedCodec
      (.transition "acme" .halted .operator " stop " 1700000000 true)).2 = haltedTable := by
    have hreason : Text.trim " stop " = "stop" := by decide
    simp only [TenantTable.call, transition, hreason]
    rfl
  have hrefused : (haltedTable.call haltedCodec
      (.transition "acme" .cancelOnly .client "less" 1700000001 true)).2 = haltedTable := rfl
  simp [haltCalls, Run.steps, hmoved, hrefused]

/-- A restart after the two calls finds the customer stopped. -/
theorem stop_holds_and_durable_is_on_file_sample :
    ∃ restarted, TenantStateStore.load haltedCodec true "/var/lib/signer/tenant-state.json"
        (some haltedText) = some restarted ∧
      restarted.stateOf "acme" = .halted := by
  have hroundTrip : haltedCodec.RoundTrip :=
    AtomicFile.Codec.ofTable_roundTrip (List.nodup_singleton _)
  have hboots : firstBoot.Boots haltedCodec := .inr ⟨_, true, rfl⟩
  have hreached : haltedTable ∈ reached haltedCodec firstBoot haltCalls := by
    simp [reached, steps_haltCalls]
  obtain ⟨restarted, hload, -, hstate⟩ :=
    (stop_holds_and_durable_is_on_file hroundTrip hboots haltCalls).2.2 haltedTable hreached _ rfl
      rfl
  exact ⟨restarted, hload, (hstate "acme").trans rfl⟩

end TenantTable

end Signer.Gateway
