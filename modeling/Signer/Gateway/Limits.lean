import Mathlib.Data.Finmap
import Signer.Service.AtomicFile
import Signer.Text.Unsigned

/-!
# The limits of the gateway

The gateway bounds what a bearer token can obtain: requests in a minute, orders in a day, and for a
payer key the value of its payments in a day. The minute buckets are in memory. The two daily
totals are kept in a file each, written before a request is allowed, and a day never goes back.
-/

namespace Signer.Gateway

open Text

def secsPerDay : Nat := 86400

def secsPerMinute : Nat := 60

inductive LimitsConfigError where
  | badValue (name got : String)
  | counterPathRequired
  | strictProfileRequiresLimits (what : String)
  | blanketAndSplitBothSet
  | x402SpendPathRequired
  deriving DecidableEq, Repr

inductive LimitDecision where
  | allow
  | rateLimited (retryAfterSecs : Nat)
  | dailyCapExhausted (retryAfterSecs : Nat)
  | x402CapExhausted (retryAfterSecs : Nat)
  | counterUnavailable
  deriving DecidableEq, Repr

structure Limits where
  dailyCap : Option UInt64 := none
  counterPath : Option String := none
  ratePerMin : Option UInt32 := none
  ordersPerMin : Option UInt32 := none
  cancelsPerMin : Option UInt32 := none
  dryRun : Bool := false
  x402PeriodCap : Option (BitVec 128) := none
  x402SpendPath : Option String := none
  counterPath_isSome : dailyCap.isSome → counterPath.isSome := by decide
  x402SpendPath_isSome : x402PeriodCap.isSome → x402SpendPath.isSome := by decide
  not_blanket_and_split :
    ¬ ((ordersPerMin.isSome || cancelsPerMin.isSome) && ratePerMin.isSome) := by decide

/-! ### The configuration -/

structure LimitsVars where
  dailyCap : Option String := none
  counterPath : Option String := none
  rateLimit : Option String := none
  ordersPerMin : Option String := none
  cancelsPerMin : Option String := none
  x402PeriodCap : Option String := none
  x402SpendPath : Option String := none
  dryRun : Option String := none
  requireAuth : Option String := none

def envFlagEnabled (value : Option String) : Bool :=
  value.any fun v => ["1", "true", "yes"].any (eqIgnoreAsciiCase (trim v))

def parsePositive (bound : Nat) (name : String) (value : Option String) :
    Except LimitsConfigError (Option Nat) :=
  match value.map trim with
  | none => .ok none
  | some raw =>
    if raw = "" then .ok none
    else match parseUnsigned bound raw with
      | some v => if 0 < v then .ok (some v) else .error (.badValue name raw)
      | none => .error (.badValue name raw)

def parsePositiveU64 (name : String) (value : Option String) :
    Except LimitsConfigError (Option UInt64) :=
  (parsePositive (2 ^ 64) name value).map (Option.map UInt64.ofNat)

def parsePositiveU128 (name : String) (value : Option String) :
    Except LimitsConfigError (Option (BitVec 128)) :=
  (parsePositive (2 ^ 128) name value).map (Option.map (BitVec.ofNat 128))

/-- `parse_positive_u32`: the text of the error is the number, not what was read. -/
def parsePositiveU32 (name : String) (value : Option String) :
    Except LimitsConfigError (Option UInt32) := do
  match ← parsePositiveU64 name value with
  | some v =>
    if 2 ^ 32 - 1 < v.toNat then .error (.badValue name (toString v)) else .ok (some v.toUInt32)
  | none => .ok none

def pathOf (value : Option String) : Option String :=
  (value.map trim).filter (· ≠ "")

def missingLimits (dailyCap : Option UInt64) (ratePerMin ordersPerMin cancelsPerMin : Option UInt32)
    (dryRun : Bool) : List String :=
  (if dailyCap.isNone then ["SIGNER_DAILY_ORDER_CAP"] else []) ++
    (if ratePerMin.isSome || (ordersPerMin.isSome && cancelsPerMin.isSome) then []
      else ["a rate control (SIGNER_RATE_LIMIT_PER_MIN, or BOTH SIGNER_ORDERS_PER_MIN + " ++
        "SIGNER_CANCELS_PER_MIN)"]) ++
    (if dryRun then ["SIGNER_LIMITS_DRY_RUN must be unset"] else [])

namespace Limits

/-- `Limits::disabled`: no limit is set. -/
def disabled : Limits := {}

def fromEnv (vars : LimitsVars) : Except LimitsConfigError Limits := do
  let dailyCap ← parsePositiveU64 "SIGNER_DAILY_ORDER_CAP" vars.dailyCap
  let ratePerMin ← parsePositiveU32 "SIGNER_RATE_LIMIT_PER_MIN" vars.rateLimit
  let ordersPerMin ← parsePositiveU32 "SIGNER_ORDERS_PER_MIN" vars.ordersPerMin
  let cancelsPerMin ← parsePositiveU32 "SIGNER_CANCELS_PER_MIN" vars.cancelsPerMin
  let counterPath := pathOf vars.counterPath
  let x402PeriodCap ← parsePositiveU128 "SIGNER_X402_PERIOD_CAP" vars.x402PeriodCap
  let x402SpendPath := pathOf vars.x402SpendPath
  let dryRun := envFlagEnabled vars.dryRun
  if hcounter : dailyCap.isSome → counterPath.isSome then
    if hspend : x402PeriodCap.isSome → x402SpendPath.isSome then
      if hsplit : (ordersPerMin.isSome || cancelsPerMin.isSome) && ratePerMin.isSome then
        .error .blanketAndSplitBothSet
      else
        let missing := missingLimits dailyCap ratePerMin ordersPerMin cancelsPerMin dryRun
        if envFlagEnabled vars.requireAuth ∧ missing ≠ [] then
          .error (.strictProfileRequiresLimits (", ".intercalate missing))
        else
          .ok { dailyCap, counterPath, ratePerMin, ordersPerMin, cancelsPerMin, dryRun,
                x402PeriodCap, x402SpendPath, counterPath_isSome := hcounter,
                x402SpendPath_isSome := hspend, not_blanket_and_split := hsplit }
    else .error .x402SpendPathRequired
  else .error .counterPathRequired

/-- What a limit that cannot be checked decides: `counter_error` and `x402_spend_error`. -/
def unavailable (limits : Limits) : LimitDecision :=
  if limits.dryRun then .allow else .counterUnavailable

end Limits

/-- `token_key`, with SHA-256 as a parameter. -/
def tokenKey (sha256 : Bytes → Bytes) (token : String) : Bytes := sha256 (bytes token)

/-- `key_hex`: the form a token or a payer takes in a file. -/
def keyHex (sha256 : Bytes → Bytes) (token : String) : String :=
  hexEncode (tokenKey sha256 token)

def today (now : Nat) : Nat := now / secsPerDay

/-! ### The minute buckets -/

/-- `RateWindows`: for each token the window it was last seen in, and the count in it. -/
abbrev RateWindows := Finmap fun _ : Bytes => Nat × UInt32

structure RateState where
  rate : RateWindows := ∅
  ordersRate : RateWindows := ∅
  cancelsRate : RateWindows := ∅

namespace Limits

def window (now : Nat) : Nat := now / secsPerMinute

/-- `check_bucket` on the bucket's map. -/
def checkBucket (limits : Limits) (sha256 : Bytes → Bytes) (cap : Option UInt32) (token : String)
    (now : Nat) (windows : RateWindows) : LimitDecision × RateWindows :=
  match cap with
  | none => (.allow, windows)
  | some cap =>
    if now = 0 then (limits.unavailable, windows)
    else
      let key := tokenKey sha256 token
      let entry := (windows.lookup key).getD (window now, 0)
      -- the stored window is replaced whenever it differs, earlier or later
      let entry := if entry.1 ≠ window now then (window now, 0) else entry
      if cap ≤ entry.2 then
        (if limits.dryRun then .allow
          else .rateLimited (secsPerMinute - now % secsPerMinute),
          windows.insert key entry)
      else (.allow, windows.insert key (entry.1, entry.2 + 1))

def checkRate (limits : Limits) (sha256 : Bytes → Bytes) (token : String) (now : Nat)
    (s : RateState) : LimitDecision × RateState :=
  let checked := limits.checkBucket sha256 limits.ratePerMin token now s.rate
  (checked.1, { s with rate := checked.2 })

def checkOrdersRate (limits : Limits) (sha256 : Bytes → Bytes) (token : String) (now : Nat)
    (s : RateState) : LimitDecision × RateState :=
  let checked := limits.checkBucket sha256 limits.ordersPerMin token now s.ordersRate
  (checked.1, { s with ordersRate := checked.2 })

def checkCancelsRate (limits : Limits) (sha256 : Bytes → Bytes) (token : String) (now : Nat)
    (s : RateState) : LimitDecision × RateState :=
  let checked := limits.checkBucket sha256 limits.cancelsPerMin token now s.cancelsRate
  (checked.1, { s with cancelsRate := checked.2 })

end Limits

/-! ### The daily totals -/

structure DayState (α : Type) where
  day : Nat
  totals : Finmap fun _ : String => α
  deriving DecidableEq

structure DayStore (α : Type) where
  cache : Option (DayState α) := none
  file : Option Bytes := none

section

variable {α : Type}

namespace DayState

def total [OfNat α 0] (s : DayState α) (key : String) : α := (s.totals.lookup key).getD 0

def set (s : DayState α) (key : String) (value : α) : DayState α :=
  { s with totals := s.totals.insert key value }

def start (day : Nat) : DayState α := ⟨day, ∅⟩

def forward (day : Nat) (s : DayState α) : Option (DayState α) :=
  if s.day = day then some s else if s.day < day then some (start day) else none

end DayState

namespace DayStore

/-- `load_daily_state` and `load_x402_spend_state`. -/
def load (codec : AtomicFile.Codec (DayState α)) (reads : Bool) (day : Nat) (file : Option Bytes) :
    Option (DayState α) :=
  match AtomicFile.load codec reads file with
  | .missing => some (.start day)
  | .failed => none
  | .value s => s.forward day

def resolve (codec : AtomicFile.Codec (DayState α)) (reads : Bool) (day : Nat)
    (store : DayStore α) : Option (DayState α) :=
  match store.cache with
  | some s => s.forward day
  | none => load codec reads day store.file

def writeThrough (codec : AtomicFile.Codec (DayState α)) (writes : Bool) (s : DayState α)
    (store : DayStore α) : Bool × DayStore α :=
  let stored := AtomicFile.store codec writes s store.file
  (stored.1, ⟨some s, stored.2⟩)

/-- `boot_probe` for one of the totals: read the file, write it back, and keep it in memory. -/
def bootProbe (codec : AtomicFile.Codec (DayState α)) (reads writes : Bool) (now : Nat)
    (store : DayStore α) : Bool × DayStore α :=
  match load codec reads (today now) store.file with
  | none => (false, store)
  | some s =>
    match AtomicFile.store codec writes s store.file with
    | (true, file) => (true, ⟨some s, file⟩)
    | (false, file) => (false, { store with file })

def restart (store : DayStore α) : DayStore α := { store with cache := none }

end DayStore

end

namespace Limits

def checkAndCountOrder (limits : Limits) (sha256 : Bytes → Bytes)
    (codec : AtomicFile.Codec (DayState UInt64)) (reads writes : Bool) (token : String) (now : Nat)
    (store : DayStore UInt64) : LimitDecision × DayStore UInt64 :=
  match limits.dailyCap, limits.counterPath with
  | some cap, some _ =>
    if now = 0 then (limits.unavailable, store)
    else match store.resolve codec reads (today now) with
      | none => (limits.unavailable, store)
      | some s =>
        let key := keyHex sha256 token
        let count := s.total key
        if cap ≤ count ∧ !limits.dryRun then
          -- looking the token up leaves an entry behind
          (.dailyCapExhausted (secsPerDay - now % secsPerDay),
            { store with cache := some (s.set key count) })
        else
          let written := store.writeThrough codec writes (s.set key (count + 1))
          (if written.1 then .allow else limits.unavailable, written.2)
  | _, _ => (.allow, store)

def checkAndCountX402Spend (limits : Limits) (sha256 : Bytes → Bytes)
    (codec : AtomicFile.Codec (DayState (BitVec 128))) (reads writes : Bool) (scope : String)
    (value : BitVec 128) (now : Nat) (store : DayStore (BitVec 128)) :
    LimitDecision × DayStore (BitVec 128) :=
  match limits.x402PeriodCap, limits.x402SpendPath with
  | some cap, some _ =>
    if now = 0 then (limits.unavailable, store)
    else match store.resolve codec reads (today now) with
      | none => (limits.unavailable, store)
      | some s =>
        let key := keyHex sha256 scope
        let current := s.total key
        -- `checked_add`
        if 2 ^ 128 ≤ current.toNat + value.toNat then
          (limits.unavailable, { store with cache := some s })
        else
          let newTotal := current + value
          if cap < newTotal ∧ !limits.dryRun then
            (.x402CapExhausted (secsPerDay - now % secsPerDay), { store with cache := some s })
          else
            let written := store.writeThrough codec writes (s.set key newTotal)
            (if written.1 then .allow else limits.unavailable, written.2)
  | _, _ => (.allow, store)

end Limits

/-- SHA-256 where the only text is `sample-token`. -/
def Sample.sha256 : Bytes → Bytes := fun _ =>
  beBytes 32 0x0f35d0ae14518b96bd6d3fec3ca15801fd58c9e048b1ccdea11a71378f2acdc9

end Signer.Gateway
