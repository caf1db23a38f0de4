import Mathlib.Data.List.Sort
import Signer.Proto.Wire
import Signer.Gateway.TenantState
import Signer.Service.Program

/-!
# The unwind of a stopped customer

When a customer is stopped, a job lists its resting orders on every venue it can reach, cancels them
and lists again, until a listing is empty or it gives up. In between it looks at the state of the
customer, which may have been released meanwhile. The answers of the venues, the state of the
customer and the clock come from outside.
-/

namespace Signer.Gateway

def maxRounds : ℕ := 5

def cancelAttempts : ℕ := 4

def rawCap : ℕ := 4096

def intentGateMark : String := "af2-intent-gate"

structure OpenOrder where
  venue : String
  symbol : String
  orderId : String
  deriving DecidableEq, Repr

inductive CancelOutcome where
  | cancelled
  | gone
  | failed (error : String)
  deriving DecidableEq, Repr

structure RawExchange where
  venue : String
  op : String
  httpStatus : Option ℕ
  body : String
  deriving DecidableEq, Repr

def takeBytes : ℕ → List Char → List Char
  | _, [] => []
  | n, c :: cs => if c.utf8Size ≤ n then c :: takeBytes (n - c.utf8Size) cs else []

/-- `truncate`: cut a text at a character boundary. -/
def truncate (s : String) (n : ℕ) : String :=
  if s.utf8ByteSize ≤ n then s else .ofList (takeBytes n s.toList ++ ['…'])

/-- `BTreeMap::insert`: entries are kept by key. -/
def insertEntry {α : Type} (key : String) (value : α) : List (String × α) → List (String × α)
  | [] => [(key, value)]
  | (k, v) :: rest =>
    if key < k then (key, value) :: (k, v) :: rest
    else if key = k then (key, value) :: rest
    else (k, v) :: insertEntry key value rest

/-! ### Reading the answers of the venues -/

structure ValueFormat where
  display : Json → String
  debug : Option Json → String

def okxRow (row : Json) : Except String OpenOrder :=
  match (row.get "instId").bind Json.asStr, (row.get "ordId").bind Json.asStr with
  | some symbol, some orderId =>
    if symbol ≠ "" ∧ orderId ≠ "" then .ok { venue := "okx", symbol, orderId }
    else .error "okx order row without instId/ordId — book NOT read"
  | _, _ => .error "okx order row without instId/ordId — book NOT read"

def parseOkxOpenOrders (format : ValueFormat) (status : ℕ) (json : Json) :
    Except String (List OpenOrder) :=
  if status ≠ 200 then
    .error ("okx HTTP " ++ toString status ++ ": " ++ truncate (format.display json) 200)
  else if (json.get "code").bind Json.asStr ≠ some "0" then
    .error ("okx code " ++ format.debug (json.get "code") ++ " msg " ++
      format.debug (json.get "msg"))
  else
    match (json.get "data").bind Json.asArray with
    | none => .error "okx response without a data list — book NOT read"
    | some data => data.mapM okxRow

def binanceRow (format : ValueFormat) (row : Json) : Except String OpenOrder :=
  let orderId := (row.get "orderId").map fun
    | .number n => format.display (.number n)
    | .string s => s
    | _ => ""
  match (row.get "symbol").bind Json.asStr, orderId with
  | some symbol, some orderId =>
    if symbol ≠ "" ∧ orderId ≠ "" then .ok { venue := "binance", symbol, orderId }
    else .error "binance order row without symbol/orderId — book NOT read"
  | _, _ => .error "binance order row without symbol/orderId — book NOT read"

def parseBinanceOpenOrders (format : ValueFormat) (status : ℕ) (json : Json) :
    Except String (List OpenOrder) :=
  if status ≠ 200 then
    .error ("binance HTTP " ++ toString status ++ ": " ++ truncate (format.display json) 200)
  else
    match json.asArray with
    | none =>
      .error ("binance openOrders is not a list — book NOT read: " ++
        truncate (format.display json) 200)
    | some rows => rows.mapM (binanceRow format)

/-- `parse_okx_cancel`: an order the venue no longer knows is not resting. -/
def parseOkxCancel (status : ℕ) (json : Json) : CancelOutcome :=
  let row := ((json.get "data").bind Json.asArray).bind List.head?
  let scode := ((row.bind (Json.get "sCode")).bind Json.asStr).getD ""
  let topMsg := ((json.get "msg").bind Json.asStr).getD ""
  let smsg := (((row.bind (Json.get "sMsg")).bind Json.asStr).filter (· ≠ "")).getD topMsg
  let code := ((json.get "code").bind Json.asStr).getD ""
  if status = 200 ∧ code = "0" ∧ scode = "0" then .cancelled
  else if scode = "51400" ∨ scode = "51401" ∨ scode = "51402" ∨ scode = "51410" then .gone
  else
    .failed ("okx HTTP " ++ toString status ++ " code " ++ code ++ " sCode " ++ scode ++ " " ++ smsg)

def asI64 : Json → Option ℤ
  | .number (.posInt n) => if n.toNat < 2 ^ 63 then some n.toNat else none
  | .number (.negInt n) => some n
  | _ => none

def parseBinanceCancelAll (format : ValueFormat) (status : ℕ) (json : Json) : CancelOutcome :=
  let code := (json.get "code").bind asI64
  if status = 200 ∧ (code = some 200 ∨ code = none) then .cancelled
  else if code = some (-2011) then .gone
  else
    .failed ("binance HTTP " ++ toString status ++ " " ++ truncate (format.display json) 200)

/-! ### Talking to the venues -/

inductive SignKind where
  | read
  | cancel
  deriving DecidableEq

def refusalHint (status : ℕ) (kind : SignKind) : String :=
  if status = 400 then
    match kind with
    | .cancel =>
      " [af2-intent-gate] — most likely this tenant's policy requires a signed cancel intent " ++
      "(AF-2) and the unwind job holds no agent key, so it cannot cancel here at all: cancel by " ++
      "hand via the venue UI. Other 400 causes: the venue blob is missing for this customer, or " ++
      "the token no longer resolves"
    | .read =>
      " — a read is never refused by the cancel-intent gate; look instead for a missing venue " ++
      "blob for this customer, a token that no longer resolves, or a venue this key's policy " ++
      "does not allow"
  else if status = 401 ∨ status = 403 then
    " — the token was refused or the action is not in this key's policy; the unwind cannot " ++
    "proceed until an operator fixes the grant"
  else ""

abbrev HttpHeaders := List (String × String)

structure VenueResponse where
  status : ℕ
  text : String
  json : Except String Json

inductive VenueQuery where
  | signAccountRead (venue method path query : String)
  | signOkxCancel (symbol orderId : String)
  | send (venue op method url : String) (headers : HttpHeaders) (body : Option String)
  | sleep (seconds : ℕ)

@[reducible]
def VenueQuery.Answer : VenueQuery → Type
  | .signAccountRead .. => Except ℕ HttpHeaders
  | .signOkxCancel .. => Except ℕ (String × HttpHeaders)
  | .send .. => Except String VenueResponse
  | .sleep _ => Unit

abbrev VenueProgram := Program VenueQuery VenueQuery.Answer

structure GatewayOps where
  format : ValueFormat
  okxIsDemo : Bool
  binanceSignedUrl : String → String → HttpHeaders → Except String (String × HttpHeaders)

namespace GatewayOps

/-- `GatewayOps::send`: every answer of a venue is recorded. -/
def send (venue op method url : String) (headers : HttpHeaders) (body : Option String)
    (raw : List RawExchange) : VenueProgram (Except String (ℕ × Json) × List RawExchange) := do
  let answer : Except String VenueResponse ←
    Program.query (VenueQuery.send venue op method url headers body)
  match answer with
  | .error e => pure (.error e, raw)
  | .ok response =>
    let raw := raw ++ [{
      venue, op, httpStatus := some response.status, body := truncate response.text rawCap }]
    match response.json with
    | .error e =>
      pure (.error ("venue returned non-JSON (HTTP " ++ toString response.status ++ "): " ++ e),
        raw)
    | .ok json => pure (.ok (response.status, json), raw)

/-- The attempts of `GatewayOps::signed_read` from one on: a rate limit is waited out. -/
def signedReadFrom (venue method path query : String) :
    ℕ → ℕ → VenueProgram (Except String HttpHeaders)
  | 0, _ => pure (.error "")
  | left + 1, attempt => do
    let answer : Except ℕ HttpHeaders ←
      Program.query (VenueQuery.signAccountRead venue method path query)
    match answer with
    | .ok headers => pure (.ok headers)
    | .error status =>
      if status = 429 ∧ attempt < cancelAttempts then do
        let _ ← Program.query (VenueQuery.sleep (20 * attempt))
        signedReadFrom venue method path query left (attempt + 1)
      else
        pure (.error ("sign " ++ method ++ " " ++ path ++ " refused: HTTP " ++ toString status ++
          refusalHint status .read))

def signedRead (venue method path query : String) : VenueProgram (Except String HttpHeaders) :=
  signedReadFrom venue method path query cancelAttempts 1

variable (ops : GatewayOps)

def okxHeaders (headers : HttpHeaders) : HttpHeaders :=
  if ops.okxIsDemo then insertEntry "x-simulated-trading" "1" headers else headers

def listOpen (venue : String) : VenueProgram (Except String (List OpenOrder) × List RawExchange) :=
  if venue = "okx" then do
    match ← signedRead "okx" "GET" "/api/v5/trade/orders-pending" "" with
    | .error e => pure (.error e, [])
    | .ok headers =>
      let sent ← send venue "list" "GET" "https://www.okx.com/api/v5/trade/orders-pending"
        (ops.okxHeaders headers) none []
      pure (sent.1.bind fun r => parseOkxOpenOrders ops.format r.1 r.2, sent.2)
  else if venue = "binance" then do
    match ← signedRead "binance" "GET" "/fapi/v1/openOrders" "" with
    | .error e => pure (.error e, [])
    | .ok headers =>
      match ops.binanceSignedUrl "/fapi/v1/openOrders" "" headers with
      | .error e => pure (.error ("binance url assembly: " ++ e), [])
      | .ok (url, headers) =>
        let sent ← send venue "list" "GET" url headers none []
        pure (sent.1.bind fun r => parseBinanceOpenOrders ops.format r.1 r.2, sent.2)
  else pure (.error ("venue " ++ venue ++ " not supported"), [])

/-- The attempts of `GatewayOps::cancel_okx_one` from one on, behind a failure. -/
def cancelOkxFrom (order : OpenOrder) :
    ℕ → ℕ → String → List RawExchange → VenueProgram (CancelOutcome × List RawExchange)
  | 0, _, last, raw => pure (.failed last, raw)
  | left + 1, attempt, _, raw => do
    let signed : Except ℕ (String × HttpHeaders) ←
      Program.query (VenueQuery.signOkxCancel order.symbol order.orderId)
    match signed with
    | .error status =>
      let last := "sign okx cancel refused: HTTP " ++ toString status ++ refusalHint status .cancel
      if status = 429 ∧ attempt < cancelAttempts then do
        let _ ← Program.query (VenueQuery.sleep (20 * attempt))
        cancelOkxFrom order left (attempt + 1) last raw
      else pure (.failed last, raw)
    | .ok (canonical, headers) =>
      let headers := insertEntry "Content-Type" "application/json" (ops.okxHeaders headers)
      let sent ← send "okx" "cancel" "POST" "https://www.okx.com/api/v5/trade/cancel-order"
        headers (some canonical) raw
      match sent.1 with
      | .ok (status, json) => pure (parseOkxCancel status json, sent.2)
      | .error e =>
        if attempt < cancelAttempts then do
          let _ ← Program.query (VenueQuery.sleep (20 * attempt))
        cancelOkxFrom order left (attempt + 1) e sent.2

def cancelOkxOne (order : OpenOrder) (raw : List RawExchange) :
    VenueProgram (CancelOutcome × List RawExchange) :=
  ops.cancelOkxFrom order cancelAttempts 1 "" raw

/-- The attempts of `GatewayOps::cancel_binance_symbol` from one on, behind a failure. -/
def cancelBinanceFrom (symbol : String) :
    ℕ → ℕ → String → List RawExchange → VenueProgram (CancelOutcome × List RawExchange)
  | 0, _, last, raw => pure (.failed last, raw)
  | left + 1, attempt, _, raw => do
    let query := "symbol=" ++ symbol
    -- the signature carries a timestamp, so every attempt signs again
    match ← signedRead "binance" "DELETE" "/fapi/v1/allOpenOrders" query with
    | .error e => pure (.failed e, raw)
    | .ok headers =>
      match ops.binanceSignedUrl "/fapi/v1/allOpenOrders" query headers with
      | .error e => pure (.failed ("binance url assembly: " ++ e), raw)
      | .ok (url, headers) =>
        let sent ← send "binance" "cancel_all" "DELETE" url headers none raw
        let again (last : String) := do
          if attempt < cancelAttempts then
            let _ ← Program.query (VenueQuery.sleep (20 * attempt))
          cancelBinanceFrom symbol left (attempt + 1) last sent.2
        match sent.1 with
        | .ok (status, json) =>
          if status = 429 then
            again ("binance HTTP 429 " ++ truncate (ops.format.display json) 120)
          else pure (parseBinanceCancelAll ops.format status json, sent.2)
        | .error e => again e

def cancelBinanceSymbol (symbol : String) (raw : List RawExchange) :
    VenueProgram (CancelOutcome × List RawExchange) :=
  ops.cancelBinanceFrom symbol cancelAttempts 1 "" raw

def cancelOkx : List OpenOrder → List RawExchange →
    VenueProgram (List CancelOutcome × List RawExchange)
  | [], raw => pure ([], raw)
  | order :: orders, raw => do
    let (outcome, raw) ← ops.cancelOkxOne order raw
    let (outcomes, raw) ← cancelOkx orders raw
    pure (outcome :: outcomes, raw)

def cancelBinance : List OpenOrder → List (String × CancelOutcome) → List RawExchange →
    VenueProgram (List (String × CancelOutcome) × List RawExchange)
  | [], bySymbol, raw => pure (bySymbol, raw)
  | order :: orders, bySymbol, raw =>
    if (bySymbol.lookup order.symbol).isSome then cancelBinance orders bySymbol raw
    else do
      let (outcome, raw) ← ops.cancelBinanceSymbol order.symbol raw
      cancelBinance orders (insertEntry order.symbol outcome bySymbol) raw

def cancel (venue : String) (orders : List OpenOrder) :
    VenueProgram (List CancelOutcome × List RawExchange) :=
  if venue = "okx" then ops.cancelOkx orders []
  else if venue = "binance" then do
    let (bySymbol, raw) ← ops.cancelBinance orders [] []
    -- every symbol of an order is in the map
    pure (orders.map fun order => (bySymbol.lookup order.symbol).getD (.failed ""), raw)
  else pure (orders.map fun _ => .failed ("venue " ++ venue ++ " not supported"), [])

end GatewayOps

/-! ### The job -/

structure IncidentBundle where
  customer : String
  tenantState : TenantState
  startedUnix : ℕ
  finishedUnix : ℕ
  phase : ReconcilePhase
  rounds : ℕ
  venues : List (String × VenueReconcile)
  before : List (String × List OpenOrder)
  after : List (String × List OpenOrder)
  raw : List RawExchange

/-- What a job asks of the gateway and the venues. -/
inductive JobQuery where
  | nowUnix
  | stateOf
  | updateReconcile (f : ReconcileStatus → ReconcileStatus)
  | listOpen (venue : String)
  | cancel (venue : String) (orders : List OpenOrder)
  | sleep (seconds : ℕ)
  | writeBundle (bundle : IncidentBundle)

@[reducible]
def JobQuery.Answer : JobQuery → Type
  | .nowUnix => ℕ
  | .stateOf => TenantState
  | .updateReconcile _ => Unit
  | .listOpen _ => Except String (List OpenOrder) × List RawExchange
  | .cancel _ _ => List CancelOutcome × List RawExchange
  | .sleep _ => Unit
  | .writeBundle _ => Option String

abbrev JobProgram := Program JobQuery JobQuery.Answer

def venueStems : List String :=
  ["okx", "binance", "binance_spot", "binance_futures", "bybit", "kucoin", "asterdex",
    "hyperliquid_main", "hyperliquid_testnet"]

/-- `GatewayOps::venues`: the trading venues a customer has a blob for. -/
def venuesOf (customer : String) (blobs : List String) : List String :=
  let stems := blobs.filterMap (Text.stripPrefix (customer ++ "/"))
  (stems.filter (· ∈ venueStems)).insertionSort (· ≤ ·)

def supported (venue : String) : Bool := venue = "okx" ∨ venue = "binance"

/-- What a job has found out so far. -/
structure Unwind where
  progress : List (String × VenueReconcile)
  before : List (String × List OpenOrder) := []
  after : List (String × List OpenOrder) := []
  raw : List RawExchange := []
  rounds : ℕ := 0
  intentGated : Bool := false

namespace Unwind

def modify (u : Unwind) (venue : String) (f : VenueReconcile → VenueReconcile) : Unwind :=
  { u with progress := insertEntry venue (f ((u.progress.lookup venue).getD {})) u.progress }

def noteUnreadable (u : Unwind) (venue error : String) : Unwind :=
  u.modify venue fun pv => { pv with resting := none, error := some (truncate error 300) }

def noteListed (u : Unwind) (venue : String) (orders : List OpenOrder) : Unwind :=
  let count := UInt32.ofNat orders.length
  let u := u.modify venue fun pv =>
    { pv with
      found := if u.rounds = 1 then count else pv.found
      resting := some count
      error := none }
  { u with
    before := if u.rounds = 1 then insertEntry venue orders u.before else u.before
    after := insertEntry venue orders u.after }

def noteOutcome (venue : String) (u : Unwind) : CancelOutcome → Unwind
  | .cancelled | .gone => u.modify venue fun pv => { pv with cancelled := pv.cancelled + 1 }
  | .failed e =>
    let u := u.modify venue fun pv => { pv with error := some (truncate e 300) }
    { u with intentGated := u.intentGated || decide (intentGateMark.toList <:+: e.toList) }

def noteOutcomes (u : Unwind) (venue : String) (orders : List OpenOrder)
    (outcomes : List CancelOutcome) : Unwind :=
  ((orders.zip outcomes).map (·.2)).foldl (noteOutcome venue) u

def nothingFound (u : Unwind) (venues : List String) : Bool :=
  venues.all fun v => ((u.progress.lookup v).getD {}).found = 0

def lastSeenEmpty (u : Unwind) (venues : List String) : Bool :=
  venues.all fun v => ((u.progress.lookup v).getD {}).resting = some 0

end Unwind

namespace ReconcileStatus

def markRunning (started : ℕ) (progress : List (String × VenueReconcile))
    (status : ReconcileStatus) : ReconcileStatus :=
  { status with phase := .running, startedUnix := started, venues := progress }

def markRound (u : Unwind) (status : ReconcileStatus) : ReconcileStatus :=
  { status with rounds := u.rounds, venues := u.progress }

def markFinal (phase : ReconcilePhase) (finished : ℕ) (u : Unwind) (path : Option String)
    (jobError : Option String) (status : ReconcileStatus) : ReconcileStatus :=
  { status with
    phase, finishedUnix := some finished, rounds := u.rounds, venues := u.progress,
    incidentPath := path, error := jobError.or status.error }

def markNoToken (now : ℕ) (status : ReconcileStatus) : ReconcileStatus :=
  { status with
    phase := .failed, finishedUnix := some now,
    error := some ("no SIGNER_API_TOKENS entry for this customer in the gateway environment " ++
      "— cannot sign cancels; unwind by hand") }

end ReconcileStatus

inductive RoundEnd where
  | released (u : Unwind)
  | complete (u : Unwind) (allClean : Bool)

def unwindVenue (venue : String) (u : Unwind) (allClean : Bool) : JobProgram RoundEnd := do
  let listed : Except String (List OpenOrder) × List RawExchange ←
    Program.query (JobQuery.listOpen venue)
  let u := { u with raw := u.raw ++ listed.2 }
  match listed.1 with
  | .error e => pure (.complete (u.noteUnreadable venue e) false)
  | .ok orders =>
    let u := u.noteListed venue orders
    if orders = [] then pure (.complete u allClean)
    else do
      let state : TenantState ← Program.query JobQuery.stateOf
      if state = .active then pure (.released u)
      else do
        let cancelled : List CancelOutcome × List RawExchange ←
          Program.query (JobQuery.cancel venue orders)
        let u := { u with raw := u.raw ++ cancelled.2 }
        pure (.complete (u.noteOutcomes venue orders cancelled.1) false)

def unwindVenues : List String → Unwind → Bool → JobProgram RoundEnd
  | [], u, allClean => pure (.complete u allClean)
  | venue :: venues, u, allClean => do
    match ← unwindVenue venue u allClean with
    | .released u => pure (.released u)
    | .complete u allClean => unwindVenues venues u allClean

def unwindRounds (venues : List String) : ℕ → Unwind → JobProgram (ReconcilePhase × Unwind)
  | 0, u => pure (.failed, u)
  | left + 1, u => do
    let u := { u with rounds := u.rounds + 1 }
    let state : TenantState ← Program.query JobQuery.stateOf
    if state = .active then pure (.terminated, u)
    else do
      match ← unwindVenues venues u true with
      | .released u => pure (.terminated, u)
      | .complete u allClean => do
        let _ ← Program.query (JobQuery.updateReconcile (.markRound u))
        if u.intentGated then pure (.failed, u)
        else if allClean ∧ 1 < u.rounds then pure (.done, u)
        else if allClean ∧ u.rounds = 1 ∧ u.nothingFound venues then pure (.done, u)
        else do
          if u.rounds < maxRounds then
            let _ ← Program.query (JobQuery.sleep (5 * 2 ^ min (u.rounds - 1) 3))
          unwindRounds venues left u

def startingProgress (venues : List String) : List (String × VenueReconcile) :=
  venues.foldl (fun progress venue => insertEntry venue
    (if supported venue then {}
      else { error := some "venue not unwindable by this version — unwind by hand",
             unsupported := true }) progress) []

def verifiedPhase (venues : List String) (phase : ReconcilePhase) (u : Unwind) : ReconcilePhase :=
  if phase = .done ∧ ¬u.lastSeenEmpty (venues.filter supported) then .failed else phase

def intentGatedError : String :=
  "this tenant's policy requires a signed cancel intent (AF-2) and the unwind job holds no " ++
  "agent key — it cannot cancel ANY of these orders, now or on a retry. The stop itself is in " ++
  "force: no NEW signing happens. The resting book must be cleared by hand at the venue. " ++
  "Stopped after the first refusal rather than repeating it per order per round."

def verdict (venues : List String) (phase : ReconcilePhase) (u : Unwind) :
    ReconcilePhase × Option String :=
  let unsupported := venues.filter fun venue => !supported venue
  let phase := verifiedPhase venues phase u
  if unsupported ≠ [] ∧ phase ≠ .terminated then
    (.failed, some (toString unsupported.length ++ " venue(s) this version cannot unwind (" ++
      ", ".intercalate unsupported ++ "): their books were NOT listed and orders may still be " ++
      "resting — cancel by hand via the venue UI"))
  else
    (phase, if u.intentGated then some intentGatedError else none)

/-- What `run` does with the outcome of its rounds: the bundle, and the final status. -/
def finish (customer : String) (venues : List String) (started : ℕ) (phase : ReconcilePhase)
    (u : Unwind) : JobProgram ReconcilePhase := do
  let (phase, jobError) := verdict venues phase u
  let finished : ℕ ← Program.query JobQuery.nowUnix
  let state : TenantState ← Program.query JobQuery.stateOf
  let path : Option String ← Program.query (JobQuery.writeBundle
    { customer, tenantState := state, startedUnix := started, finishedUnix := finished, phase,
      rounds := u.rounds, venues := u.progress, before := u.before, after := u.after,
      raw := u.raw })
  let _ ← Program.query (JobQuery.updateReconcile (.markFinal phase finished u path jobError))
  pure phase

/-- `run`: one job to completion. -/
def run (customer : String) (venues : List String) : JobProgram ReconcilePhase := do
  let started : ℕ ← Program.query JobQuery.nowUnix
  let progress := startingProgress venues
  let _ ← Program.query (JobQuery.updateReconcile (.markRunning started progress))
  let (phase, u) ← unwindRounds (venues.filter supported) maxRounds { progress }
  finish customer venues started phase u

/-- The task `kick` spawns: without a token for the customer nothing can be signed. -/
def job (customer : String) (venues : List String) (hasToken : Bool) : JobProgram Unit :=
  if hasToken then do
    let _ ← run customer venues
    pure ()
  else do
    let now : ℕ ← Program.query JobQuery.nowUnix
    let _ ← Program.query (JobQuery.updateReconcile (.markNoToken now))
    pure ()

end Signer.Gateway
