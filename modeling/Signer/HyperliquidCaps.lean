import Signer.OrderCaps

/-!
# Hyperliquid caps

A Hyperliquid action is free-form JSON that names an asset by its index. The caps of a policy
bound each order and the orders of one asset together.
-/

namespace Signer

def hlMaxEntriesPerAction : Nat := 64

def hlEntryArraysWithinCeiling (action : Json) : Bool :=
  ["orders", "cancels"].all fun field =>
    ((action.get field).bind Json.asArray).all fun entries =>
      entries.length ≤ hlMaxEntriesPerAction

/-- The shape, which is checked before anything is decrypted. -/
def validateHlAction (type field : String) (action : Json) : Bool :=
  action.isObject ∧ (action.get "type").bind Json.asStr = some type ∧
    ((action.get field).bind Json.asArray).any (fun entries => !entries.isEmpty) ∧
    hlEntryArraysWithinCeiling action

def validateOrderAction (action : Json) : Bool := validateHlAction "order" "orders" action

def validateCancelAction (action : Json) : Bool := validateHlAction "cancel" "cancels" action

/-- One entry that is no address spoils the list. -/
def addressListed (allowed : List String) (addr : Bytes) : Bool :=
  (allowed.all fun entry => (parseEvmAddress entry).isSome) ∧
    allowed.any fun entry => parseEvmAddress entry = some addr

/-- An order that passed on its own, with the factors of its notional where that is capped. -/
structure HlOrder where
  asset : UInt64
  cap : HlOrderCap
  size : String
  notional : Option (String × String)

/-- Only an order of type `limit` can be priced. -/
def checkHlNotional (order : Json) (size : String) (cap : HlOrderCap) :
    Except ErrCode (Option (String × String)) :=
  match cap.maxNotional with
  | none => .ok none
  | some maxNotional =>
    if ((order.get "t").bind (Json.get "limit")).isNone then .error .policyDenied
    else
      match (order.get "p").bind Json.asStr with
      | none => .error .badRequest
      | some px =>
        match checkNotional .policyDenied size px maxNotional with
        | .error code => .error code
        | .ok () => .ok (some (size, px))

def checkHlOrder (caps : List HlOrderCap) (order : Json) : Except ErrCode HlOrder :=
  match (order.get "a").bind Json.asU64 with
  | none => .error .badRequest
  | some asset =>
    match (order.get "s").bind Json.asStr with
    | none => .error .badRequest
    | some size =>
      match caps.find? fun c => c.asset = asset with
      | none => .error .policyDenied
      | some cap =>
        match checkSize .policyDenied size cap.maxSize with
        | .error code => .error code
        | .ok () =>
          match checkHlNotional order size cap with
          | .error code => .error code
          | .ok notional => .ok { asset, cap, size, notional }

/-- The orders of one asset, which are bounded together. -/
structure AssetTotal where
  asset : UInt64
  cap : HlOrderCap
  sizes : List String
  notionals : List (String × String)

def addHlOrder (order : HlOrder) : List AssetTotal → List AssetTotal
  | [] => [⟨order.asset, order.cap, [order.size], order.notional.toList⟩]
  | total :: totals =>
    if total.asset = order.asset then
      { total with
        sizes := total.sizes ++ [order.size]
        notionals := total.notionals ++ order.notional.toList } :: totals
    else total :: addHlOrder order totals

def collectHlOrders (caps : List HlOrderCap) :
    List AssetTotal → List Json → Except ErrCode (List AssetTotal)
  | totals, [] => .ok totals
  | totals, order :: orders =>
    match checkHlOrder caps order with
    | .error code => .error code
    | .ok checked => collectHlOrders caps (addHlOrder checked totals) orders

def checkTotal (exceeds policyAlone : Option Bool) : Except ErrCode Unit :=
  match exceeds with
  | some true => .error .policyDenied
  | some false => .ok ()
  | none => if policyAlone.isNone then .error .internalError else .error .badRequest

def checkHlTotal (total : AssetTotal) : Except ErrCode Unit :=
  match
    if 1 < total.sizes.length then
      checkTotal (sumExceeds total.sizes total.cap.maxSize) (sumExceeds ["1"] total.cap.maxSize)
    else .ok () with
  | .error code => .error code
  | .ok () =>
    if 1 < total.notionals.length then
      match total.cap.maxNotional with
      | none => .error .internalError
      | some maxNotional =>
        checkTotal (notionalSumExceeds total.notionals maxNotional)
          (notionalSumExceeds [("1", "1")] maxNotional)
    else .ok ()

def checkHlTotals : List AssetTotal → Except ErrCode Unit
  | [] => .ok ()
  | total :: totals =>
    match checkHlTotal total with
    | .error code => .error code
    | .ok () => checkHlTotals totals

def checkHlBatch (caps : List HlOrderCap) (orders : List Json) : Except ErrCode Unit :=
  match collectHlOrders caps [] orders with
  | .error code => .error code
  | .ok totals => checkHlTotals totals

def enforceHlCaps (policy : Option Policy) (action : Json) (vault : Option Bytes) :
    Except ErrCode Unit :=
  match policy with
  | none => .ok ()
  | some p =>
    if p.allowedVaults.any fun allowed => vault.any fun v => !addressListed allowed v then
      .error .policyDenied
    else
      match p.hlOrderCaps, (action.get "orders").bind Json.asArray with
      | some caps, some orders => checkHlBatch caps orders
      | _, _ => .ok ()

end Signer
