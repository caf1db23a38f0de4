import Mathlib.Data.Finset.Sort
import Mathlib.Data.String.Basic
import Signer.Gateway.JobContract
import Signer.Gateway.TenantRuns

/-!
# Stops, kicks and unwind jobs

Customers are moved by anyone at any time. Each move is followed by a kick, which reads whether an
unwind is due, then claims the customer and spawns a job, unless a job holds the claim already. A
job acts step by step in between, and lets the claim go when it has ended. A restart forgets jobs
and kicks, reloads the table, closes what was left open on customers that trade again, and kicks
every customer whose unwind is due. The clock, the time of a customer's last stop and the writer of
its status only record what happened.
-/

namespace Signer.Gateway

structure Deployment where
  hasToken : String → Bool
  blobs : List String

/-- A job between two of its steps. -/
structure UnwindJob where
  program : JobProgram Unit
  canList : Bool
  past : List JobEvent := []
  listedAt : Option ℕ := none

structure Writer where
  listedAt : Option ℕ
  canList : Bool
  deriving DecidableEq

structure UnwindSystem where
  table : TenantTable
  up : Bool
  deployment : Deployment
  jobs : String → Option UnwindJob
  kicks : List String
  claims : List String
  clock : ℕ
  stoppedAt : String → ℕ
  writtenBy : String → Option Writer

/-- What can happen next. -/
inductive UnwindInput where
  | transition (customer : String) (target : TenantState) (actor : Actor) (reason : String)
      (now : ℕ) (writes : Bool)
  | kick (customer : String)
  | kickReads (customer : String)
  | kickClaims (customer : String)
  | jobStep (customer : String) (answers : (q : JobQuery) → q.Answer) (now : ℕ) (writes : Bool)
  | jobEnds (customer : String)
  | restart (deployment : Deployment) (path : String) (reads writes : Bool) (now : ℕ)

namespace UnwindSystem

/-- The job `kick` spawns. -/
def spawn (deployment : Deployment) (customer : String) : UnwindJob :=
  let venues := venuesOf customer deployment.blobs
  { program := job customer venues (deployment.hasToken customer)
    canList := canListVenues venues (deployment.hasToken customer) }

def transition (codec : AtomicFile.Codec StateFile) (customer : String) (target : TenantState)
    (actor : Actor) (reason : String) (now : ℕ) (writes : Bool) (s : UnwindSystem) :
    UnwindSystem :=
  let moved := s.table.transition codec writes customer target actor reason now
  match moved.1 with
  | .ok (.changed old _) =>
    { s with
      table := moved.2
      kicks := customer :: s.kicks
      stoppedAt :=
        if old = .active then Function.update s.stoppedAt customer s.clock else s.stoppedAt }
  | _ => s

def kickReads (customer : String) (s : UnwindSystem) : UnwindSystem :=
  if customer ∈ s.kicks then
    { s with
      kicks := s.kicks.erase customer
      claims := if s.table.store.isReconcileCandidate customer then customer :: s.claims
        else s.claims }
  else s

def kickClaims (customer : String) (s : UnwindSystem) : UnwindSystem :=
  if customer ∈ s.claims then
    { s with
      claims := s.claims.erase customer
      jobs := match s.jobs customer with
        | some _ => s.jobs
        | none => Function.update s.jobs customer (some (spawn s.deployment customer)) }
  else s

def answer (customer : String) (answers : (q : JobQuery) → q.Answer) (s : UnwindSystem) :
    (q : JobQuery) → q.Answer
  | .stateOf => s.table.store.stateOf customer
  | .updateReconcile _ => ()
  | q => answers q

def effect (codec : AtomicFile.Codec StateFile) (customer : String) (now : ℕ) (writes : Bool)
    (table : TenantTable) : JobQuery → TenantTable
  | .updateReconcile f => (table.updateReconcile codec writes customer f now).2
  | _ => table

def writer (job : UnwindJob) (old : Option Writer) : JobQuery → Option Writer
  | .updateReconcile _ => some { listedAt := job.listedAt, canList := job.canList }
  | _ => old

def firstListing (clock : ℕ) (old : Option ℕ) : JobQuery → Option ℕ
  | .listOpen _ => old.or (some clock)
  | _ => old

def jobStep (codec : AtomicFile.Codec StateFile) (customer : String)
    (answers : (q : JobQuery) → q.Answer) (now : ℕ) (writes : Bool) (s : UnwindSystem) :
    UnwindSystem :=
  match s.jobs customer with
  | none => s
  | some job =>
    match job.program with
    | .done _ => s
    | .ask q next =>
      let r := s.answer customer answers q
      { s with
        table := effect codec customer now writes s.table q
        writtenBy := Function.update s.writtenBy customer (writer job (s.writtenBy customer) q)
        jobs := Function.update s.jobs customer (some
          { job with
            program := next r
            past := job.past ++ [⟨q, r⟩]
            listedAt := firstListing s.clock job.listedAt q }) }

def jobEnds (customer : String) (s : UnwindSystem) : UnwindSystem :=
  match s.jobs customer with
  | none => s
  | some job =>
    match job.program with
    | .done _ => { s with jobs := Function.update s.jobs customer none }
    | .ask _ _ => s

def markOrphan (now : ℕ) (status : ReconcileStatus) : ReconcileStatus :=
  { status with
    phase := .terminated, finishedUnix := some now,
    error := some "released before the job finished; restart closed it" }

def isOrphan (table : TenantTable) (customer : String) : Bool :=
  table.store.stateOf customer = .active ∧
    (table.store.reconcileOf customer).any fun status => !status.isFinal

def closeOrphan (codec : AtomicFile.Codec StateFile) (writes : Bool) (now : ℕ)
    (table : TenantTable) (customer : String) : TenantTable :=
  if isOrphan table customer then
    (table.updateReconcile codec writes customer (markOrphan now) now).2
  else table

/-- The customers with a record, in order (`TenantStateStore::all`). -/
def customers (table : TenantTable) : List String := table.store.inner.keys.sort (· ≤ ·)

/-- `resume_all`: close the orphans, then kick every customer whose unwind is due. -/
def resumeAll (codec : AtomicFile.Codec StateFile) (writes : Bool) (now : ℕ) (s : UnwindSystem) :
    UnwindSystem :=
  let table := (customers s.table).foldl (closeOrphan codec writes now) s.table
  { s with
    table
    kicks := (customers table).filter table.store.isReconcileCandidate
    writtenBy := fun customer => if isOrphan s.table customer then none else s.writtenBy customer }

def down (s : UnwindSystem) : UnwindSystem :=
  { s with up := false, jobs := fun _ => none, kicks := [], claims := [] }

def restart (codec : AtomicFile.Codec StateFile) (deployment : Deployment) (path : String)
    (reads writes : Bool) (now : ℕ) (s : UnwindSystem) : UnwindSystem :=
  match TenantStateStore.load codec reads path s.table.file with
  | none => s.down
  | some store =>
    let probed := TenantTable.bootProbe codec writes { store, file := s.table.file }
    if probed.1 then
      resumeAll codec writes now { s.down with table := probed.2, up := true, deployment }
    else s.down

def act (codec : AtomicFile.Codec StateFile) (s : UnwindSystem) : UnwindInput → UnwindSystem
  | .restart deployment path reads writes now => s.restart codec deployment path reads writes now
  | input =>
    if s.up then
      match input with
      | .transition customer target actor reason now writes =>
        s.transition codec customer target actor reason now writes
      | .kick customer => { s with kicks := customer :: s.kicks }
      | .kickReads customer => s.kickReads customer
      | .kickClaims customer => s.kickClaims customer
      | .jobStep customer answers now writes => s.jobStep codec customer answers now writes
      | .jobEnds customer => s.jobEnds customer
      | .restart .. => s
    else s

def step (codec : AtomicFile.Codec StateFile) (input : UnwindInput) (s : UnwindSystem) :
    Unit × UnwindSystem :=
  ((), { s.act codec input with clock := s.clock + 1 })

def start (deployment : Deployment) (path : String) : UnwindSystem where
  table := { store := { inner := ∅, path := some path, durable := true }, file := none }
  up := true
  deployment
  jobs := fun _ => none
  kicks := []
  claims := []
  clock := 1
  stoppedAt := fun _ => 0
  writtenBy := fun _ => none

def reached (codec : AtomicFile.Codec StateFile) (s : UnwindSystem) (inputs : List UnwindInput) :
    List UnwindSystem :=
  s :: (Run.steps (step codec) s inputs).map Run.Step.after

/-! ### What is said about a customer -/

def Stopped (s : UnwindSystem) (customer : String) : Prop :=
  s.table.store.stateOf customer ≠ .active

/-- Nothing is under way for the customer. -/
def Quiet (s : UnwindSystem) (customer : String) : Prop :=
  s.up = true ∧ s.jobs customer = none ∧ customer ∉ s.kicks ∧ customer ∉ s.claims

def Open (s : UnwindSystem) (customer : String) : Prop :=
  ∀ status, s.table.store.reconcileOf customer = some status → status.isFinal = false

def Final (s : UnwindSystem) (customer : String) : Prop :=
  ∃ status, s.table.store.reconcileOf customer = some status ∧ status.isFinal = true

/-- The status is the final word of a job that started to list after the stop. -/
def Unwound (s : UnwindSystem) (customer : String) : Prop :=
  s.Final customer ∧ ∃ writer, s.writtenBy customer = some writer ∧
    ∃ time, writer.listedAt = some time ∧ s.stoppedAt customer < time

/-- The status is the final word of a job that had nothing it could list. -/
def Unreachable (s : UnwindSystem) (customer : String) : Prop :=
  s.Final customer ∧ ∃ writer, s.writtenBy customer = some writer ∧ writer.canList = false

/-- A stop meets no job of the customer, or one that has not yet acted on the state before the
stop, or it escalates a stop whose unwind is still open. A restart finds the table on file. -/
def Orderly (s : UnwindSystem) : UnwindInput → Prop
  | .transition customer target .. =>
    target ≠ .active → ∀ job, s.jobs customer = some job →
      ¬SawActive job.past ∧ ¬Listed job.past ∧ ¬Wrote job.past ∨
        s.Stopped customer ∧ s.Open customer
  | .restart .. => s.table.store.durable = true
  | _ => True

end UnwindSystem

end Signer.Gateway
