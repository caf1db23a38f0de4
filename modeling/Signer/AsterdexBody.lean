import Signer.OrderCaps
import Signer.Text.Search

/-!
# The Asterdex body

Asterdex signs a form-encoded body as it stands, so everything that bounds an order is
read from that body, byte by byte and without decoding. All names searched for are
ASCII, so positions in characters stand for positions in bytes.
-/

namespace Signer

open Text

def asterdexMaxBodyLen : Nat := 8 * 1024

/-- `asterdex_first_param`: the value of the only parameter of that name, an error if the
name stands elsewhere first or comes again. -/
def asterdexFirstParam (body key : String) : Except Unit (Option String) :=
  match cut key.toList body.toList with
  | none => .ok none
  | some (before, after) =>
    if !atBoundary before then .error ()
    else if contains ("&" ++ key) (after.dropWhile (· ≠ '&')) then .error ()
    else .ok (some (.ofList (after.takeWhile (· ≠ '&'))))

/-- The scan of `asterdex_flag_present`: `skip` characters belong to an occurrence already
looked at, `boundary` says whether a parameter can start here. -/
def flagPresentFrom (name : List Char) : (skip : Nat) → (boundary : Bool) → List Char → Bool
  | _, _, [] => false
  | skip + 1, _, c :: cs => flagPresentFrom name skip (c = '&') cs
  | 0, boundary, c :: cs =>
    if name.isPrefixOf (c :: cs) then
      match boundary, ((c :: cs).drop name.length).head? with
      | true, none | true, some '=' | true, some '&' => true
      | _, _ => flagPresentFrom name (name.length - 1) (c = '&') cs
    else flagPresentFrom name 0 (c = '&') cs

def asterdexFlagPresent (body name : String) : Bool :=
  flagPresentFrom name.toList 0 true body.toList

def asterdexAllowedParams : List String :=
  ["signer", "nonce", "symbol", "side", "type", "quantity", "price", "timeInForce", "reduceOnly",
    "positionSide", "newClientOrderId", "stopPrice", "workingType", "priceProtect",
    "newOrderRespType", "activationPrice", "callbackRate", "orderId", "origClientOrderId",
    "startTime", "endTime", "limit", "fromId", "incomeType", "recvWindow", "timestamp"]

/-- The loop of `check_asterdex_body_allow`. -/
def checkAsterdexParams : List String → Except String Unit
  | [] => .ok ()
  | pair :: rest =>
    if pair = "" then checkAsterdexParams rest
    else
      match splitOnce '=' pair with
      | none => .error "asterdex_bare_flag_not_allowed"
      | some (name, _) =>
        if name ∉ asterdexAllowedParams then .error "asterdex_param_not_allowed"
        else checkAsterdexParams rest

def checkAsterdexBodyAllow (body : String) : Except String Unit :=
  checkAsterdexParams (pieces body)

def asterdexFloorDenies (requirePolicy : Bool) (policy : Option Policy) : Bool :=
  requirePolicy ∧ (policy.bind Policy.orderCaps).isNone

def isCappedBodyChar (c : Char) : Bool :=
  isAsciiAlphanumeric c ∨ c ∈ ['&', '=', '.', '_', '-', ':', '/']

/-- The price `enforce_asterdex_size_cap` hands on: read only where the notional is capped,
and only from a limit order. -/
def asterdexPrice (caps : List OrderAssetCap) (symbol body : String) :
    Except ErrCode (Option String) :=
  if ((caps.find? fun c => c.symbol = symbol).bind OrderAssetCap.maxNotional).isSome then
    match asterdexFirstParam body "type=" with
    | .error () => .error .badRequest
    | .ok type =>
      if type ≠ some "LIMIT" then .error .policyDenied
      else
        match asterdexFirstParam body "price=" with
        | .error () => .error .badRequest
        | .ok price => .ok price
  else .ok none

def enforceAsterdexSizeCap (policy : Option Policy) (body : String) : Except ErrCode Unit :=
  match policy.bind Policy.orderCaps with
  | none => .ok ()
  | some caps =>
    if !body.toList.all isCappedBodyChar then .error .badRequest
    else if asterdexFlagPresent body "closePosition" then .error .policyDenied
    else if asterdexFlagPresent body "batchOrders" then .error .policyDenied
    else if (checkAsterdexBodyAllow body).toOption.isNone then .error .badRequest
    else
      match asterdexFirstParam body "quantity=" with
      | .error () => .error .badRequest
      | .ok none => .ok ()
      | .ok (some qty) =>
        match asterdexFirstParam body "symbol=" with
        | .error () => .error .badRequest
        | .ok none => .error .policyDenied
        | .ok (some symbol) =>
          match asterdexPrice caps symbol body with
          | .error code => .error code
          | .ok price => enforceOrderCap policy symbol (some qty) price

/-- The `signer=` rule of `validate_asterdex_body`. -/
def asterdexSignerBinds (body : String) (derived : Bytes) : Bool :=
  match cut "signer=".toList body.toList with
  | none => false
  | some (before, after) =>
    let expected := ("0x" ++ hexEncode derived).toList
    let rest := after.drop expected.length
    atBoundary before ∧ expected.isPrefixOf after ∧
      (rest = [] ∨ rest.head? = some '&') ∧ !contains "&signer=" rest

/-- The `nonce=` rule of `validate_asterdex_body`. -/
def asterdexNonceFresh (body : String) : Bool :=
  match cut "nonce=".toList body.toList with
  | none => false
  | some (before, after) =>
    let value := after.takeWhile (· ≠ '&')
    atBoundary before ∧ 13 ≤ (String.ofList value).utf8ByteSize ∧
      value.all isAsciiDigit ∧ !contains "&nonce=" (after.dropWhile (· ≠ '&'))

def validateAsterdexBody (body : String) (derived : Bytes) : Bool :=
  body.utf8ByteSize ≤ asterdexMaxBodyLen ∧ asterdexSignerBinds body derived ∧
    asterdexNonceFresh body

/-- The endpoint rule of `handle_sign_asterdex`: the path without its query is listed by
an entry that has none. -/
def asterdexEndpointAllowed (allowed : List String) (path : Option String) : Bool :=
  allowed.any fun ep => '?' ∉ ep.toList ∧ ep = beforeFirst '?' (path.getD "")

end Signer
