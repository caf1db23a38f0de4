import Mathlib.Data.Option.Basic
import Signer.Proto.Messages
import Signer.Text.Form

/-!
# Order and cancel builders

Structured orders and cancels are turned into the venue's own text inside the enclave.
Caller values are restricted to characters that cannot end a parameter or a JSON
string. The texts are built piece by piece as the venues expect them.
-/

namespace Signer

open Text

variable {o : OrderRequest} {q side ordType : String} {needsPrice : Bool}
  {price coid : Option String}

/-- `is_safe_binance_param_value` and `is_safe_okx_value`. -/
def isSafeParamValue (v : String) : Bool :=
  v ≠ "" ∧ v.toList.all fun c => isAsciiAlphanumeric c ∨ c = '-' ∨ c = '_' ∨ c = '.'

def binanceSide : String → Option String
  | "buy" => some "BUY"
  | "sell" => some "SELL"
  | _ => none

def binanceOrderType : String → Option (String × Bool)
  | "market" => some ("MARKET", false)
  | "limit" => some ("LIMIT", true)
  | _ => none

def okxSide : String → Option String
  | "buy" => some "buy"
  | "sell" => some "sell"
  | _ => none

def okxOrderType : String → Option (String × Bool)
  | "market" => some ("market", false)
  | "limit" => some ("limit", true)
  | _ => none

def orderPrice (needsPrice : Bool) (price : Option String) : Option (Option String) :=
  match needsPrice, price with
  | true, some p => if isSafeParamValue p then some (some p) else none
  | true, none => none
  | false, some _ => none
  | false, none => some none

def orderClientId (coid : Option String) : Option (Option String) :=
  match coid with
  | none => some none
  | some id => if isSafeParamValue id then some (some id) else none

def buildBinanceOrderQuery (o : OrderRequest) : Option String := do
  guard (isSafeParamValue o.symbol)
  guard (isSafeParamValue o.qty)
  let side ← binanceSide o.side
  let (ordType, needsPrice) ← binanceOrderType o.ordType
  let price ← orderPrice needsPrice o.price
  let coid ← orderClientId o.clientOrderId
  pure ("symbol=" ++ o.symbol ++ "&side=" ++ side ++ "&type=" ++ ordType ++ "&quantity=" ++ o.qty ++
    price.elim "" (fun p => "&price=" ++ p ++ "&timeInForce=GTC") ++
    (if o.reduceOnly then "&reduceOnly=true" else "") ++
    coid.elim "" (fun id => "&newClientOrderId=" ++ id))

def buildBinanceCancelQuery (c : CancelRequest) : Option String := do
  guard (isSafeParamValue c.symbol)
  guard (isSafeParamValue c.orderId)
  pure ("symbol=" ++ c.symbol ++ "&orderId=" ++ c.orderId)

def buildOkxOrderBody (o : OrderRequest) : Option String := do
  guard (isSafeParamValue o.symbol)
  guard (isSafeParamValue o.qty)
  let side ← okxSide o.side
  let (ordType, needsPrice) ← okxOrderType o.ordType
  let price ← orderPrice needsPrice o.price
  let coid ← orderClientId o.clientOrderId
  pure ("\x7b" ++ "\"instId\":\"" ++ o.symbol ++ "\",\"tdMode\":\"cross\",\"side\":\"" ++ side ++
    "\",\"ordType\":\"" ++ ordType ++ "\",\"sz\":\"" ++ o.qty ++ "\"" ++
    price.elim "" (fun p => ",\"px\":\"" ++ p ++ "\"") ++
    (if o.reduceOnly then ",\"reduceOnly\":true" else "") ++
    coid.elim "" (fun id => ",\"clOrdId\":\"" ++ id ++ "\"") ++ "\x7d")

def buildOkxCancelBody (c : CancelRequest) : Option String := do
  guard (isSafeParamValue c.symbol)
  guard (isSafeParamValue c.orderId)
  pure ("\x7b\"instId\":\"" ++ c.symbol ++ "\",\"ordId\":\"" ++ c.orderId ++ "\"\x7d")

/-! ### What a Binance order query consists of -/

def binanceOrderPairs (o : OrderRequest) (side ordType : String) (price coid : Option String) :
    List (String × String) :=
  [("symbol", o.symbol), ("side", side), ("type", ordType), ("quantity", o.qty)] ++
    price.elim [] (fun p => [("price", p), ("timeInForce", "GTC")]) ++
    (if o.reduceOnly then [("reduceOnly", "true")] else []) ++
    coid.elim [] (fun id => [("newClientOrderId", id)])

theorem noAmp_of_isSafeParamValue {v : String} (h : isSafeParamValue v = true) : NoAmp v := by
  simp only [isSafeParamValue, decide_eq_true_eq, List.all_eq_true] at h
  intro hamp
  exact absurd (h.2 '&' hamp) (by decide)

theorem buildBinanceOrderQuery_eq (h : buildBinanceOrderQuery o = some q) :
    ∃ side ordType needsPrice price coid, isSafeParamValue o.symbol = true ∧
      isSafeParamValue o.qty = true ∧ binanceSide o.side = some side ∧
      binanceOrderType o.ordType = some (ordType, needsPrice) ∧
      orderPrice needsPrice o.price = some price ∧ orderClientId o.clientOrderId = some coid ∧
      q = formEncode (binanceOrderPairs o side ordType price coid) := by
  simp only [buildBinanceOrderQuery, do_eq_some, pure_eq_some, Option.guard_eq_some',
    exists_and_left, exists_const] at h
  obtain ⟨hsymbol, hqty, side, hside, ⟨ordType, needsPrice⟩, htype, price, hprice,
    coid, hcoid, rfl⟩ := h
  refine ⟨side, ordType, needsPrice, price, coid, hsymbol, hqty, hside, htype, hprice, hcoid, ?_⟩
  apply String.toList_inj.mp
  cases price <;> cases coid <;> by_cases hr : o.reduceOnly = true <;>
    simp [binanceOrderPairs, formEncode, formPiece, hr, List.intercalate]

theorem orderPrice_eq {out : Option String} (h : orderPrice needsPrice price = some out) :
    out = price ∧ price.isSome = needsPrice ∧ ∀ px, price = some px →
      isSafeParamValue px = true := by
  cases needsPrice <;> cases price <;> simp [orderPrice] at h ⊢
  · exact h.symm
  · exact ⟨h.2.symm, h.1⟩

theorem orderClientId_eq {out : Option String} (h : orderClientId coid = some out) :
    out = coid ∧ ∀ id, coid = some id → isSafeParamValue id = true := by
  cases coid <;> simp [orderClientId] at h ⊢
  · exact h.symm
  · exact ⟨h.2.symm, h.1⟩

theorem mem_binanceOrderPairs {pair : String × String} :
    pair ∈ binanceOrderPairs o side ordType price coid ↔
      pair ∈ [("symbol", o.symbol), ("side", side), ("type", ordType), ("quantity", o.qty)] ∨
        (∃ px, price = some px ∧ pair ∈ [("price", px), ("timeInForce", "GTC")]) ∨
        (o.reduceOnly = true ∧ pair = ("reduceOnly", "true")) ∨
        ∃ id, coid = some id ∧ pair = ("newClientOrderId", id) := by
  cases price <;> cases coid <;> by_cases hr : o.reduceOnly = true <;>
    simp [binanceOrderPairs, hr, or_assoc]

section

variable (hsymbol : isSafeParamValue o.symbol = true)
  (hqty : isSafeParamValue o.qty = true) (hside : binanceSide o.side = some side)
  (htype : binanceOrderType o.ordType = some (ordType, needsPrice))
  (hprice : ∀ px, price = some px → isSafeParamValue px = true)
  (hcoid : ∀ id, coid = some id → isSafeParamValue id = true)

include hsymbol hqty hside htype hprice hcoid

theorem isSafe_binanceOrderPairs :
    ∀ pair ∈ binanceOrderPairs o side ordType price coid,
      isSafeParamValue pair.1 = true ∧ isSafeParamValue pair.2 = true := by
  have hnames : ∀ name ∈ ["symbol", "side", "type", "quantity", "price", "newClientOrderId"],
      isSafeParamValue name = true := by decide
  have hside' : isSafeParamValue side = true := by
    unfold binanceSide at hside
    split at hside <;> cases hside <;> decide
  have htype' : isSafeParamValue ordType = true := by
    unfold binanceOrderType at htype
    split at htype <;> cases htype <;> decide
  intro pair hpair
  rcases mem_binanceOrderPairs.mp hpair with h | ⟨px, hpx, h⟩ | ⟨-, rfl⟩ | ⟨id, hid, rfl⟩
  · simp only [List.mem_cons, List.not_mem_nil, or_false] at h
    rcases h with rfl | rfl | rfl | rfl
    · exact ⟨hnames "symbol" (by simp), hsymbol⟩
    · exact ⟨hnames "side" (by simp), hside'⟩
    · exact ⟨hnames "type" (by simp), htype'⟩
    · exact ⟨hnames "quantity" (by simp), hqty⟩
  · simp only [List.mem_cons, List.not_mem_nil, or_false] at h
    rcases h with rfl | rfl
    · exact ⟨hnames "price" (by simp), hprice px hpx⟩
    · exact ⟨by decide, by decide⟩
  · exact ⟨by decide, by decide⟩
  · exact ⟨hnames "newClientOrderId" (by simp), hcoid id hid⟩

theorem noAmp_binanceOrderPairs : ∀ pair ∈ binanceOrderPairs o side ordType price coid,
    NoAmp pair.1 ∧ NoAmp pair.2 := fun pair hpair =>
  (isSafe_binanceOrderPairs hsymbol hqty hside htype hprice hcoid pair hpair).imp
    noAmp_of_isSafeParamValue noAmp_of_isSafeParamValue

end

theorem buildBinanceCancelQuery_eq {c : CancelRequest} (h : buildBinanceCancelQuery c = some q) :
    isSafeParamValue c.symbol = true ∧ isSafeParamValue c.orderId = true ∧
      q = formEncode [("symbol", c.symbol), ("orderId", c.orderId)] := by
  simp only [buildBinanceCancelQuery, do_eq_some, pure_eq_some, Option.guard_eq_some',
    exists_and_left, exists_const] at h
  obtain ⟨hsymbol, horder, rfl⟩ := h
  refine ⟨hsymbol, horder, String.toList_inj.mp ?_⟩
  simp [formEncode, formPiece]

theorem namesIn_buildBinanceCancelQuery {c : CancelRequest} (h : buildBinanceCancelQuery c = some q) :
    NamesIn ["symbol", "orderId"] q := by
  obtain ⟨hsymbol, horder, rfl⟩ := buildBinanceCancelQuery_eq h
  refine namesIn_formEncode (by simp) ?_
  simpa [NoAmp] using
    And.intro (noAmp_of_isSafeParamValue hsymbol) (noAmp_of_isSafeParamValue horder)

end Signer
