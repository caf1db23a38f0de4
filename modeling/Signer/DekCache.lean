import Mathlib.Data.Finset.Card
import Mathlib.Data.List.AList
import Signer.Env

/-!
# The data-key cache and the intent ledger

Two bounded tables in memory. The cache keeps unwrapped data keys for a short time,
least recently used first out. The ledger remembers the intents it has honoured,
oldest first out.
-/

namespace Signer

open Text

structure DekEntry where
  dek : Bytes
  inserted : Nat
  deriving DecidableEq, Repr

structure DekCache where
  map : AList fun _ : Bytes => DekEntry := ∅
  order : List Bytes := []

/-- `derive_key`: the cache key of a wrapped data key under a context. -/
def deriveKey (env : Env) (wrappedDek : Bytes) (ctx : EncryptionContext) : Bytes :=
  env.sha256 (leBytes 8 wrappedDek.length ++ wrappedDek ++ [0x1F] ++
    bytes "customer_id" ++ [0x1E] ++ bytes ctx.customerId ++ [0x1D] ++
    bytes "venue_id" ++ [0x1E] ++ bytes ctx.venueId ++ [0x1D])

namespace DekCache

def enabled (env : Env) : Bool := env.dekCacheTtlSecs ≠ 0

/-- `DekCache::get`: a fresh entry, which becomes the most recently used. -/
def get (env : Env) (now : Nat) (key : Bytes) (c : DekCache) : Option Bytes × DekCache :=
  if !enabled env then (none, c)
  else
    match c.map.lookup key with
    | none => (none, c)
    | some entry =>
      if env.dekCacheTtlSecs * 1000000000 ≤ now - entry.inserted then
        (none, { map := c.map.erase key, order := c.order.erase key })
      else (some entry.dek, { c with order := c.order.erase key ++ [key] })

/-- The eviction loop of `put`. -/
def evict (max : Nat) (map : AList fun _ : Bytes => DekEntry) : List Bytes → DekCache
  | [] => { map, order := [] }
  | oldest :: rest =>
    if max < map.entries.length then evict max (map.erase oldest) rest
    else { map, order := oldest :: rest }

def put (env : Env) (now : Nat) (key dek : Bytes) (c : DekCache) : DekCache :=
  if !enabled env then c
  else
    let order := if key ∈ c.map then c.order.erase key else c.order
    evict env.dekCacheMax (c.map.insert key { dek, inserted := now }) (order ++ [key])

def flush (_ : DekCache) : DekCache := {}

end DekCache

def maxTrackedNonces : Nat := 100000

structure IntentLedger where
  seen : Finset String := ∅
  order : List String := []

def IntentLedger.forgetOldest (l : IntentLedger) : IntentLedger :=
  if l.seen.card < maxTrackedNonces then l
  else
    match l.order with
    | [] => l
    | oldest :: order => { seen := l.seen.erase oldest, order }

def IntentLedger.recordIfNew (key : String) (l : IntentLedger) : Bool × IntentLedger :=
  if key ∈ l.seen then (false, l)
  else
    let l := l.forgetOldest
    (true, { seen := insert key l.seen, order := l.order ++ [key] })

end Signer
