import Mathlib.Data.List.AList
import Mathlib.Algebra.Order.Ring.Rat

/-!
# The rate limiter

A token bucket for each key, with a bounded number of live buckets. The oldest bucket
is moved to a second table when the first is full, and comes back from there with the
tokens it had. Times are nanoseconds and token counts are rational.
-/

namespace Signer

def maxTrackedKeys : Nat := 10000

structure Bucket where
  tokens : ℚ
  lastRefill : Nat
  deriving DecidableEq

structure RateLimiter where
  buckets : AList fun _ : String => Bucket := ∅
  insertionOrder : List String := []
  ghost : AList fun _ : String => Bucket := ∅
  ghostOrder : List String := []

namespace RateLimiter

def trimGhosts (ghost : AList fun _ : String => Bucket) :
    List String → (AList fun _ : String => Bucket) × List String
  | [] => (ghost, [])
  | stale :: rest =>
    if maxTrackedKeys ≤ (stale :: rest).length then trimGhosts (ghost.erase stale) rest
    else (ghost, stale :: rest)

def evictOldest (s : RateLimiter) : RateLimiter :=
  if s.buckets.entries.length < maxTrackedKeys then s
  else
    match s.insertionOrder with
    | [] => s
    | oldest :: order =>
      match s.buckets.lookup oldest with
      | none => { s with insertionOrder := order }
      | some evicted =>
        let trimmed := trimGhosts s.ghost s.ghostOrder
        { buckets := s.buckets.erase oldest
          insertionOrder := order
          ghost := trimmed.1.insert oldest evicted
          ghostOrder := trimmed.2 ++ [oldest] }

def makeLive (capacity : Nat) (now : Nat) (key : String) (s : RateLimiter) : RateLimiter :=
  if key ∈ s.buckets then s
  else
    let s := s.evictOldest
    let bucket := (s.ghost.lookup key).getD { tokens := capacity, lastRefill := now }
    { s with
      buckets := s.buckets.insert key bucket
      insertionOrder := s.insertionOrder ++ [key]
      ghost := s.ghost.erase key }

/-- The tokens of a bucket after the refill due at `now`. -/
def refill (capacity rate : Nat) (now : Nat) (b : Bucket) : ℚ :=
  min (b.tokens + ((now - b.lastRefill : Nat) : ℚ) / 1000000000 * rate) capacity

/-- `RateLimiter::check`: take one token of the key's bucket if there is one. -/
def check (capacity rate : Nat) (now : Nat) (key : String) (s : RateLimiter) :
    Bool × RateLimiter :=
  let s := s.makeLive capacity now key
  match s.buckets.lookup key with
  | none => (false, s)
  | some b =>
    let tokens := refill capacity rate now b
    if 1 ≤ tokens then
      (true, { s with buckets := s.buckets.insert key { tokens := tokens - 1, lastRefill := now } })
    else (false, { s with buckets := s.buckets.insert key { tokens, lastRefill := now } })

end RateLimiter

end Signer
