import Mathlib.Algebra.Ring.Nat
import Signer.Text.Basic

/-!
# The on-chain registry of enclave measurements

`UsenamiAttestationRegistry`: every owner has a history of measurements, and a mapping answers who
currently stands for a measurement. A call either reverts, which undoes everything it did, or
returns the new storage with the events it emitted.
-/

namespace Signer.Contract

abbrev Address := BitVec 160

/-- A measurement of 48 bytes, which is what the modifier `validPCR0` lets in. -/
abbrev Measurement := {pcr0 : Bytes // pcr0.length = 48}

structure PCR0Record where
  pcr0 : Measurement
  registeredAt : UInt64
  deprecatedAt : UInt64
  buildHash : Bytes
  description : Bytes
  deriving DecidableEq, Repr

/-- Histories, and who stands for a measurement. -/
structure Storage where
  records : Address → List PCR0Record
  activePCR0OwnerByHash : Bytes → Address

def Storage.empty : Storage where
  records _ := []
  activePCR0OwnerByHash _ := 0

inductive ContractError where
  | pcr0AlreadyRegistered | pcr0NotFound | notOwnerOfPCR0 | invalidPCR0Length
  deriving DecidableEq, Repr

inductive ContractEvent where
  | pcr0Registered (owner : Address) (pcr0Hash pcr0 buildHash description : Bytes)
  | pcr0Deprecated (owner : Address) (pcr0Hash pcr0 : Bytes)
  deriving DecidableEq, Repr

/-- A transaction has a sender and a time that fits. -/
structure Context where
  sender : Address
  timestamp : ℕ
  sender_ne_zero : sender ≠ 0
  timestamp_pos : 0 < timestamp
  timestamp_lt : timestamp < 2 ^ 64

def Context.now (ctx : Context) : UInt64 := .ofNat ctx.timestamp

def validPCR0 (pcr0 : Bytes) : Except ContractError Measurement :=
  if h : pcr0.length = 48 then .ok ⟨pcr0, h⟩ else .error .invalidPCR0Length

section

variable (keccak256 : Bytes → Bytes)

/-- The head of `registerPCR0`: an active last record of the sender is deprecated. -/
def autoDeprecate (ctx : Context) (s : Storage) : Storage × List ContractEvent :=
  let ownerRecords := s.records ctx.sender
  match ownerRecords.getLast? with
  | none => (s, [])
  | some last =>
    if last.deprecatedAt = 0 then
      let prevH := keccak256 last.pcr0.1
      ({ records := Function.update s.records ctx.sender
          (ownerRecords.set (ownerRecords.length - 1) { last with deprecatedAt := ctx.now })
         activePCR0OwnerByHash := Function.update s.activePCR0OwnerByHash prevH 0 },
        [.pcr0Deprecated ctx.sender prevH last.pcr0.1])
    else (s, [])

def registerPCR0 (ctx : Context) (pcr0 buildHash description : Bytes) (s : Storage) :
    Except ContractError (Storage × List ContractEvent) :=
  match validPCR0 pcr0 with
  | .error e => .error e
  | .ok measurement =>
    let h := keccak256 pcr0
    if s.activePCR0OwnerByHash h ≠ 0 then .error .pcr0AlreadyRegistered
    else
      let (s, deprecated) := autoDeprecate keccak256 ctx s
      let added : PCR0Record :=
        { pcr0 := measurement, registeredAt := ctx.now, deprecatedAt := 0, buildHash, description }
      .ok ({ records := Function.update s.records ctx.sender (s.records ctx.sender ++ [added])
             activePCR0OwnerByHash := Function.update s.activePCR0OwnerByHash h ctx.sender },
        deprecated ++ [.pcr0Registered ctx.sender h pcr0 buildHash description])

/-- The loop of `deprecatePCR0`: from the record before `i` downwards, the first active record of
the measurement is deprecated. -/
def deprecateFrom (h : Bytes) (now : UInt64) (ownerRecords : List PCR0Record) :
    ℕ → List PCR0Record
  | 0 => ownerRecords
  | i + 1 =>
    match ownerRecords[i]? with
    | none => deprecateFrom h now ownerRecords i
    | some r =>
      if keccak256 r.pcr0.1 = h ∧ r.deprecatedAt = 0 then
        ownerRecords.set i { r with deprecatedAt := now }
      else deprecateFrom h now ownerRecords i

def deprecatePCR0 (ctx : Context) (pcr0 : Bytes) (s : Storage) :
    Except ContractError (Storage × List ContractEvent) :=
  match validPCR0 pcr0 with
  | .error e => .error e
  | .ok _ =>
    let h := keccak256 pcr0
    let owner := s.activePCR0OwnerByHash h
    if owner = 0 then .error .pcr0NotFound
    else if owner ≠ ctx.sender then .error .notOwnerOfPCR0
    else
      let ownerRecords := s.records ctx.sender
      .ok ({ records := Function.update s.records ctx.sender
              (deprecateFrom keccak256 h ctx.now ownerRecords ownerRecords.length)
             activePCR0OwnerByHash := Function.update s.activePCR0OwnerByHash h 0 },
        [.pcr0Deprecated ctx.sender h pcr0])

def isPCR0Active (pcr0 : Bytes) (s : Storage) : Except ContractError (Bool × Address) :=
  match validPCR0 pcr0 with
  | .error e => .error e
  | .ok _ =>
    let owner := s.activePCR0OwnerByHash (keccak256 pcr0)
    .ok (owner ≠ 0, owner)

end

def getOwnerHistory (owner : Address) (s : Storage) : List PCR0Record := s.records owner

/-- The loop of `getActivePCR0`. -/
def activeFrom (ownerRecords : List PCR0Record) : ℕ → Option PCR0Record
  | 0 => none
  | i + 1 =>
    match ownerRecords[i]? with
    | none => activeFrom ownerRecords i
    | some r => if r.deprecatedAt = 0 then some r else activeFrom ownerRecords i

def getActivePCR0 (owner : Address) (s : Storage) : Except ContractError PCR0Record :=
  match activeFrom (s.records owner) (s.records owner).length with
  | some r => .ok r
  | none => .error .pcr0NotFound

/-! ### Transactions -/

inductive Call where
  | registerPCR0 (pcr0 buildHash description : Bytes)
  | deprecatePCR0 (pcr0 : Bytes)
  deriving DecidableEq, Repr

section

variable (keccak256 : Bytes → Bytes)

def Call.exec (ctx : Context) : Call → Storage → Except ContractError (Storage × List ContractEvent)
  | registerPCR0 pcr0 buildHash description =>
    Contract.registerPCR0 keccak256 ctx pcr0 buildHash description
  | deprecatePCR0 pcr0 => Contract.deprecatePCR0 keccak256 ctx pcr0

def transact (s : Storage) (tx : Context × Call) : Storage :=
  match tx.2.exec keccak256 tx.1 s with
  | .ok (s', _) => s'
  | .error _ => s

def run (s : Storage) (txs : List (Context × Call)) : Storage := txs.foldl (transact keccak256) s

end

end Signer.Contract
