import Mathlib.Data.Finmap
import Signer.Service.AtomicFile

/-!
# The tenant switch of the gateway

The gateway keeps, for each customer, whether it may trade, may only cancel, or is stopped, next
to the status of the job that unwinds its orders. The table is in memory, and every change is
written through to one file. A change never waits for the disk: if the write fails, the table is
ahead of the file, and a flag says so.
-/

namespace Signer.Gateway

inductive TenantState where
  | active
  | cancelOnly
  | halted
  deriving DecidableEq, Repr

def TenantState.rank : TenantState → Nat
  | active => 0
  | cancelOnly => 1
  | halted => 2

theorem TenantState.rank_injective : Function.Injective TenantState.rank := by
  intro a b h
  cases a <;> cases b <;> first | rfl | cases h

instance : LinearOrder TenantState := LinearOrder.lift' TenantState.rank TenantState.rank_injective

inductive Actor where
  | operator
  | client
  | automation
  deriving DecidableEq, Repr

inductive ReconcilePhase where
  | pending
  | running
  | done
  | failed
  | terminated
  deriving DecidableEq, Repr

structure VenueReconcile where
  found : UInt32 := 0
  cancelled : UInt32 := 0
  resting : Option UInt32 := none
  error : Option String := none
  unsupported : Bool := false
  deriving DecidableEq, Repr

structure ReconcileStatus where
  phase : ReconcilePhase
  startedUnix : Nat
  finishedUnix : Option Nat := none
  rounds : Nat := 0
  venues : List (String × VenueReconcile) := []
  incidentPath : Option String := none
  error : Option String := none
  deriving DecidableEq, Repr

def ReconcileStatus.pending (now : Nat) : ReconcileStatus where
  phase := .pending
  startedUnix := now

def ReconcileStatus.isFinal (status : ReconcileStatus) : Bool :=
  status.phase = .done ∨ status.phase = .failed ∨ status.phase = .terminated

structure TenantRecord where
  state : TenantState
  sinceUnix : Nat
  actor : Actor
  reason : String
  reconcile : Option ReconcileStatus
  deriving DecidableEq, Repr

inductive Transition where
  | changed (old new : TenantState)
  | unchanged (state : TenantState)
  deriving DecidableEq, Repr

inductive TransitionError where
  | notEscalation (current requested : TenantState)
  | automationScope
  | reasonRequired
  deriving DecidableEq, Repr

abbrev Tenants := Finmap fun _ : String => TenantRecord

structure StateFile where
  version : Nat
  tenants : Tenants
  deriving DecidableEq

structure TenantStateStore where
  inner : Tenants
  path : Option String
  durable : Bool

namespace TenantStateStore

def inMemory : TenantStateStore where
  inner := ∅
  path := none
  durable := false

/-- `TenantStateStore::load`: a missing file is an empty table, a file that cannot be read stops
the boot. -/
def load (codec : AtomicFile.Codec StateFile) (reads : Bool) (path : String)
    (file : Option Bytes) : Option TenantStateStore :=
  match AtomicFile.load codec reads file with
  | .missing => some { inner := ∅, path := some path, durable := true }
  | .value parsed => some { inner := parsed.tenants, path := some path, durable := true }
  | .failed => none

def stateOf (store : TenantStateStore) (customer : String) : TenantState :=
  (store.inner.lookup customer).elim .active TenantRecord.state

def reconcileOf (store : TenantStateStore) (customer : String) : Option ReconcileStatus :=
  (store.inner.lookup customer).bind TenantRecord.reconcile

/-- Whether a customer is among `reconcile_candidates`: it is stopped, and its unwind is not
final. -/
def isReconcileCandidate (store : TenantStateStore) (customer : String) : Bool :=
  store.stateOf customer ≠ .active ∧ (store.reconcileOf customer).all fun status => !status.isFinal

def armed (store : TenantStateStore) (customer : String) (target : TenantState) (now : Nat) :
    Option ReconcileStatus :=
  let previous := store.reconcileOf customer
  if target = .active ∨ previous.any fun status => !status.isFinal then previous
  else some (.pending now)

def insert (store : TenantStateStore) (customer : String) (record : TenantRecord) :
    TenantStateStore :=
  { store with inner := store.inner.insert customer record }

end TenantStateStore

/-- The table in memory and the file. -/
structure TenantTable where
  store : TenantStateStore
  file : Option Bytes

namespace TenantTable

/-- `persist_locked`: write the table through, and note whether that worked. -/
def persistLocked (codec : AtomicFile.Codec StateFile) (writes : Bool) (table : TenantTable) :
    TenantTable :=
  match table.store.path with
  | none => table
  | some _ =>
    let stored := AtomicFile.store codec writes { version := 1, tenants := table.store.inner }
      table.file
    { store := { table.store with durable := stored.1 }, file := stored.2 }

/-- `TenantStateStore::boot_probe`: write the table back once, and fail the boot if that does not
work. -/
def bootProbe (codec : AtomicFile.Codec StateFile) (writes : Bool) (table : TenantTable) :
    Bool × TenantTable :=
  match table.store.path with
  | none => (true, table)
  | some _ =>
    let stored := AtomicFile.store codec writes { version := 1, tenants := table.store.inner }
      table.file
    if stored.1 then (true, { store := { table.store with durable := true }, file := stored.2 })
    else (false, { table with file := stored.2 })

def insertRecord (codec : AtomicFile.Codec StateFile) (writes : Bool) (customer : String)
    (record : TenantRecord) (table : TenantTable) : TenantTable :=
  persistLocked codec writes { table with store := table.store.insert customer record }

def transition (codec : AtomicFile.Codec StateFile) (writes : Bool) (customer : String)
    (target : TenantState) (actor : Actor) (reason : String) (now : Nat) (table : TenantTable) :
    Except TransitionError Transition × TenantTable :=
  let reason := Text.trim reason
  if actor = .operator ∧ reason = "" then (.error .reasonRequired, table)
  else if actor = .automation ∧ target ≠ .cancelOnly then (.error .automationScope, table)
  else
    let current := table.store.stateOf customer
    if target = current then (.ok (.unchanged current), table)
    else if actor ≠ .operator ∧ target < current then
      (.error (.notEscalation current target), table)
    else
      let record : TenantRecord :=
        { state := target, sinceUnix := now, actor, reason,
          reconcile := table.store.armed customer target now }
      (.ok (.changed current target), table.insertRecord codec writes customer record)

/-- `TenantStateStore::update_reconcile`: nothing happens to a customer without a record. -/
def updateReconcile (codec : AtomicFile.Codec StateFile) (writes : Bool) (customer : String)
    (f : ReconcileStatus → ReconcileStatus) (now : Nat) (table : TenantTable) :
    Bool × TenantTable :=
  match table.store.inner.lookup customer with
  | none => (false, table)
  | some record =>
    let status := f (record.reconcile.getD (.pending now))
    (true, table.insertRecord codec writes customer { record with reconcile := some status })

end TenantTable

/-! ### What the operations do to the table -/

section

variable {codec : AtomicFile.Codec StateFile} {writes : Bool} {customer other : String}
  {record : TenantRecord} {target : TenantState} {actor : Actor} {reason : String} {now : Nat}
  {f : ReconcileStatus → ReconcileStatus} {table : TenantTable}

@[simp]
theorem TenantTable.inner_persistLocked :
    (table.persistLocked codec writes).store.inner = table.store.inner := by
  unfold TenantTable.persistLocked
  split <;> rfl

@[simp]
theorem TenantTable.path_persistLocked :
    (table.persistLocked codec writes).store.path = table.store.path := by
  unfold TenantTable.persistLocked
  split <;> rfl

@[simp]
theorem TenantTable.lookup_insertRecord_self :
    (table.insertRecord codec writes customer record).store.inner.lookup customer =
      some record := by
  simp [TenantTable.insertRecord, TenantStateStore.insert]

theorem TenantTable.lookup_insertRecord_of_ne (h : other ≠ customer) :
    (table.insertRecord codec writes customer record).store.inner.lookup other =
      table.store.inner.lookup other := by
  simp [TenantTable.insertRecord, TenantStateStore.insert, Finmap.lookup_insert_of_ne _ h]

@[simp]
theorem TenantTable.path_insertRecord :
    (table.insertRecord codec writes customer record).store.path = table.store.path := by
  simp [TenantTable.insertRecord, TenantStateStore.insert]

theorem TenantTable.stateOf_insertRecord :
    (table.insertRecord codec writes customer record).store.stateOf other =
      if other = customer then record.state else table.store.stateOf other := by
  unfold TenantStateStore.stateOf
  split
  · rename_i h
    rw [h, lookup_insertRecord_self]
    rfl
  · rename_i h
    rw [lookup_insertRecord_of_ne h]

theorem TenantTable.reconcileOf_insertRecord :
    (table.insertRecord codec writes customer record).store.reconcileOf other =
      if other = customer then record.reconcile else table.store.reconcileOf other := by
  unfold TenantStateStore.reconcileOf
  split
  · rename_i h
    rw [h, lookup_insertRecord_self]
    rfl
  · rename_i h
    rw [lookup_insertRecord_of_ne h]

theorem TenantTable.transition_cases (codec : AtomicFile.Codec StateFile) (writes : Bool)
    (customer : String) (target : TenantState) (actor : Actor) (reason : String) (now : Nat)
    (table : TenantTable) :
    ((table.transition codec writes customer target actor reason now).2 = table ∧
        ∀ old new, (table.transition codec writes customer target actor reason now).1 ≠
          .ok (.changed old new)) ∨
      table.transition codec writes customer target actor reason now =
        (.ok (.changed (table.store.stateOf customer) target),
          table.insertRecord codec writes customer
            { state := target, sinceUnix := now, actor, reason := Text.trim reason,
              reconcile := table.store.armed customer target now }) ∧
      target ≠ table.store.stateOf customer ∧
      (actor ≠ .operator → table.store.stateOf customer < target) ∧
      (actor = .automation → target = .cancelOnly) := by
  unfold TenantTable.transition
  dsimp only
  split_ifs with hreason hscope hsame hlower
  · exact .inl ⟨rfl, by simp⟩
  · exact .inl ⟨rfl, by simp⟩
  · exact .inl ⟨rfl, by simp⟩
  · exact .inl ⟨rfl, by simp⟩
  · refine .inr ⟨rfl, hsame, fun hactor => ?_, fun hactor => ?_⟩
    · exact lt_of_le_of_ne (le_of_not_gt fun hlt => hlower ⟨hactor, hlt⟩) (Ne.symm hsame)
    · by_contra hne
      exact hscope ⟨hactor, hne⟩

theorem TenantTable.updateReconcile_cases (codec : AtomicFile.Codec StateFile) (writes : Bool)
    (customer : String) (f : ReconcileStatus → ReconcileStatus) (now : Nat) (table : TenantTable) :
    (table.store.inner.lookup customer = none ∧
      table.updateReconcile codec writes customer f now = (false, table)) ∨
      ∃ record, table.store.inner.lookup customer = some record ∧
        table.updateReconcile codec writes customer f now =
          (true, table.insertRecord codec writes customer
            { record with reconcile := some (f (record.reconcile.getD (.pending now))) }) := by
  unfold TenantTable.updateReconcile
  cases hlookup : table.store.inner.lookup customer with
  | none => exact .inl ⟨rfl, rfl⟩
  | some record => exact .inr ⟨record, rfl, rfl⟩

theorem TenantTable.stateOf_updateReconcile :
    (table.updateReconcile codec writes customer f now).2.store.stateOf other =
      table.store.stateOf other := by
  rcases updateReconcile_cases codec writes customer f now table with
    ⟨-, h⟩ | ⟨record, hlookup, h⟩
  · rw [h]
  · rw [h, stateOf_insertRecord]
    split
    · rename_i hsame
      rw [hsame, TenantStateStore.stateOf, hlookup]
      rfl
    · rfl

theorem TenantTable.path_updateReconcile :
    (table.updateReconcile codec writes customer f now).2.store.path = table.store.path := by
  rcases updateReconcile_cases codec writes customer f now table with ⟨-, h⟩ | ⟨record, -, h⟩ <;>
    simp [h]

theorem TenantTable.lookup_updateReconcile_of_ne (hother : other ≠ customer) :
    (table.updateReconcile codec writes customer f now).2.store.inner.lookup other =
      table.store.inner.lookup other := by
  rcases updateReconcile_cases codec writes customer f now table with ⟨-, h⟩ | ⟨record, -, h⟩
  · rw [h]
  · rw [h, lookup_insertRecord_of_ne hother]

end

end Signer.Gateway
