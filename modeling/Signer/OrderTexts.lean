import Signer.JsonParser
import Signer.OkxCaps

/-!
# What the order builders write can be read back

The texts of structured orders and cancels are put together from the caller's values by hand. The
characters of these values are so few that no value can end a parameter or a JSON string, so that
each text is split, or parsed, into the parameters it was made of. The parameters determine the
request.
-/

namespace Signer

open Text

/-! ### Builders whose text can be read back -/

/-- A text is read back as its parameters, which determine the request. -/
structure ReadsBack {ρ β : Type} (build : ρ → Option String)
    (read : String → Option (List (String × β))) (params : ρ → List (String × β)) : Prop where
  read_build : ∀ req text, build req = some text → read text = some (params req)
  nodup : ∀ req, ((params req).map Prod.fst).Nodup
  injective : ∀ req req' text, build req = some text → build req' = some text → req = req'

theorem ReadsBack.of_params {ρ β : Type} {build : ρ → Option String}
    {read : String → Option (List (String × β))} {params : ρ → List (String × β)}
    (hread : ∀ req text, build req = some text → read text = some (params req))
    (hnodup : ∀ req, ((params req).map Prod.fst).Nodup)
    (hparams : ∀ req req' text text', build req = some text → build req' = some text' →
      params req = params req' → req = req') :
    ReadsBack build read params where
  read_build := hread
  nodup := hnodup
  injective := by
    intro req req' text h h'
    have hsame : some (params req) = some (params req') := by
      rw [← hread req text h, hread req' text h']
    exact hparams req req' text text h h' (Option.some.inj hsame)

/-! ### Binance -/

def OrderRequest.binanceParams (o : OrderRequest) : List (String × String) :=
  binanceOrderPairs o (toAsciiUppercase o.side) (toAsciiUppercase o.ordType) o.price
    o.clientOrderId

def CancelRequest.binanceParams (c : CancelRequest) : List (String × String) :=
  [("symbol", c.symbol), ("orderId", c.orderId)]

theorem binanceSide_eq {side out : String} (h : binanceSide side = some out) :
    out = toAsciiUppercase side ∧ (side = "buy" ∨ side = "sell") := by
  unfold binanceSide at h
  split at h <;> cases h <;> decide

theorem binanceOrderType_eq {ordType out : String} {needsPrice : Bool}
    (h : binanceOrderType ordType = some (out, needsPrice)) :
    out = toAsciiUppercase ordType ∧ ordType = if needsPrice then "limit" else "market" := by
  unfold binanceOrderType at h
  split at h <;> cases h <;> decide

theorem buildBinanceOrderQuery_checked {o : OrderRequest} {q : String}
    (h : buildBinanceOrderQuery o = some q) :
    (o.side = "buy" ∨ o.side = "sell") ∧
      o.ordType = (if o.price.isSome then "limit" else "market") ∧
      q = formEncode o.binanceParams ∧
      ∀ pair ∈ o.binanceParams, NoAmp pair.1 ∧ NoAmp pair.2 := by
  obtain ⟨side, ordType, needsPrice, price, coid, hsymbol, hqty, hside, htype, hprice, hcoid,
    hquery⟩ := buildBinanceOrderQuery_eq h
  obtain ⟨rfl, rfl, hpriceSafe⟩ := orderPrice_eq hprice
  obtain ⟨rfl, hcoidSafe⟩ := orderClientId_eq hcoid
  have hamp := noAmp_binanceOrderPairs hsymbol hqty hside htype hpriceSafe hcoidSafe
  obtain ⟨rfl, hsides⟩ := binanceSide_eq hside
  obtain ⟨rfl, htypes⟩ := binanceOrderType_eq htype
  exact ⟨hsides, htypes, hquery, hamp⟩

theorem nodup_binanceOrderPairs (o : OrderRequest) (side ordType : String)
    (price coid : Option String) :
    ((binanceOrderPairs o side ordType price coid).map Prod.fst).Nodup := by
  cases price <;> cases coid <;> by_cases hreduce : o.reduceOnly = true <;>
    simp [binanceOrderPairs, hreduce]

theorem lookup_binanceOrderPairs (o : OrderRequest) (side ordType : String)
    (price coid : Option String) :
    let pairs := binanceOrderPairs o side ordType price coid
    pairs.lookup "symbol" = some o.symbol ∧ pairs.lookup "side" = some side ∧
      pairs.lookup "quantity" = some o.qty ∧ pairs.lookup "price" = price ∧
      (pairs.lookup "reduceOnly").isSome = o.reduceOnly ∧
      pairs.lookup "newClientOrderId" = coid := by
  cases price <;> cases coid <;> by_cases hreduce : o.reduceOnly = true <;>
    simp [binanceOrderPairs, hreduce, List.lookup_cons]

theorem toAsciiUppercase_side_injective {side side' : String} (h : side = "buy" ∨ side = "sell")
    (h' : side' = "buy" ∨ side' = "sell")
    (hsame : toAsciiUppercase side = toAsciiUppercase side') : side = side' := by
  have hne : toAsciiUppercase "buy" ≠ toAsciiUppercase "sell" := by decide
  rcases h with rfl | rfl <;> rcases h' with rfl | rfl
  · rfl
  · exact absurd hsame hne
  · exact absurd hsame.symm hne
  · rfl

theorem readsBack_buildBinanceOrderQuery :
    ReadsBack buildBinanceOrderQuery formPairs OrderRequest.binanceParams := by
  refine ReadsBack.of_params ?_ (fun o => nodup_binanceOrderPairs o _ _ _ _) ?_
  · intro o q h
    obtain ⟨-, -, rfl, hamp⟩ := buildBinanceOrderQuery_checked h
    have hne : o.binanceParams ≠ [] := by simp [OrderRequest.binanceParams, binanceOrderPairs]
    exact formPairs_formEncode hne hamp fun pair => name_of_mem_binanceOrderPairs
  · intro o o' q q' h h' hparams
    obtain ⟨hside, htype, -, -⟩ := buildBinanceOrderQuery_checked h
    obtain ⟨hside', htype', -, -⟩ := buildBinanceOrderQuery_checked h'
    obtain ⟨hl₁, hl₂, hl₃, hl₄, hl₅, hl₆⟩ := lookup_binanceOrderPairs o
      (toAsciiUppercase o.side) (toAsciiUppercase o.ordType) o.price o.clientOrderId
    obtain ⟨hr₁, hr₂, hr₃, hr₄, hr₅, hr₆⟩ := lookup_binanceOrderPairs o'
      (toAsciiUppercase o'.side) (toAsciiUppercase o'.ordType) o'.price o'.clientOrderId
    simp only [OrderRequest.binanceParams] at hparams
    rw [hparams] at hl₁ hl₂ hl₃ hl₄ hl₅ hl₆
    have hsame := toAsciiUppercase_side_injective hside hside'
      (Option.mem_unique hl₂ hr₂)
    have hprice : o.price = o'.price := hl₄.symm.trans hr₄
    have htypes : o.ordType = o'.ordType := by rw [htype, htype', hprice]
    cases o
    cases o'
    simp_all

theorem readsBack_buildBinanceCancelQuery :
    ReadsBack buildBinanceCancelQuery formPairs CancelRequest.binanceParams := by
  refine ReadsBack.of_params ?_ (fun c => by simp [CancelRequest.binanceParams]) ?_
  · intro c q h
    obtain ⟨hsymbol, horderId, rfl⟩ := buildBinanceCancelQuery_eq h
    refine formPairs_formEncode (by simp) ?_ (by simp)
    simpa [NoAmp] using
      And.intro (noAmp_of_isSafeParamValue hsymbol) (noAmp_of_isSafeParamValue horderId)
  · intro c c' q q' _ _ hparams
    cases c
    cases c'
    simpa [CancelRequest.binanceParams] using hparams

/-! ### OKX -/

def jsonMembers (readNumber : List Char → Option (JsonNumber × List Char)) (text : String) :
    Option (List (String × Json)) :=
  match parseJsonNoDupKeys readNumber text with
  | some (.object members) => some members
  | _ => none

def OrderRequest.okxParams (o : OrderRequest) : List (String × Json) :=
  okxOrderMembers o o.side o.ordType o.price o.clientOrderId

def CancelRequest.okxParams (c : CancelRequest) : List (String × Json) :=
  [("instId", .string c.symbol), ("ordId", .string c.orderId)]

theorem shape_okxOrderMembers (o : OrderRequest) (side ordType : String)
    (price coid : Option String) :
    let members := okxOrderMembers o side ordType price coid
    (members.map Prod.fst).Nodup ∧ (Json.object members).numberFree = true ∧
      (Json.object members).noDup = true ∧ (Json.object members).depth < recursionLimit := by
  cases price <;> cases coid <;> by_cases hreduce : o.reduceOnly = true <;>
    simp [okxOrderMembers, hreduce, Json.numberFree, Json.numberFreeMembers, Json.noDup,
      Json.noDupMembers, Json.depth, Json.depthMembers, recursionLimit]

theorem lookup_okxOrderMembers (o : OrderRequest) (side ordType : String)
    (price coid : Option String) :
    let members := okxOrderMembers o side ordType price coid
    members.lookup "instId" = some (.string o.symbol) ∧
      members.lookup "side" = some (.string side) ∧
      members.lookup "ordType" = some (.string ordType) ∧
      members.lookup "sz" = some (.string o.qty) ∧
      members.lookup "px" = price.map .string ∧
      (members.lookup "reduceOnly").isSome = o.reduceOnly ∧
      members.lookup "clOrdId" = coid.map .string := by
  cases price <;> cases coid <;> by_cases hreduce : o.reduceOnly = true <;>
    simp [okxOrderMembers, hreduce, List.lookup_cons]

theorem readsBack_buildOkxOrderBody
    (readNumber : List Char → Option (JsonNumber × List Char)) :
    ReadsBack buildOkxOrderBody (jsonMembers readNumber) OrderRequest.okxParams := by
  refine ReadsBack.of_params ?_ (fun o => (shape_okxOrderMembers o _ _ _ _).1) ?_
  · intro o body h
    obtain ⟨-, htext⟩ := buildOkxOrderBody_eq h
    obtain ⟨-, hnumber, hdup, hdepth⟩ :=
      shape_okxOrderMembers o o.side o.ordType o.price o.clientOrderId
    have hparse := parseJsonNoDupKeys_compactText readNumber htext hnumber hdup hdepth
    rw [String.ofList_toList] at hparse
    simp only [jsonMembers, hparse, OrderRequest.okxParams]
  · intro o o' _ _ _ _ hparams
    obtain ⟨hl₁, hl₂, hl₃, hl₄, hl₅, hl₆, hl₇⟩ :=
      lookup_okxOrderMembers o o.side o.ordType o.price o.clientOrderId
    obtain ⟨hr₁, hr₂, hr₃, hr₄, hr₅, hr₆, hr₇⟩ :=
      lookup_okxOrderMembers o' o'.side o'.ordType o'.price o'.clientOrderId
    simp only [OrderRequest.okxParams] at hparams
    rw [hparams] at hl₁ hl₂ hl₃ hl₄ hl₅ hl₆ hl₇
    have hstring : Function.Injective Json.string := fun _ _ => Json.string.inj
    have hprice := Option.map_injective hstring (hl₅.symm.trans hr₅)
    have hcoid := Option.map_injective hstring (hl₇.symm.trans hr₇)
    cases o
    cases o'
    simp_all

theorem readsBack_buildOkxCancelBody
    (readNumber : List Char → Option (JsonNumber × List Char)) :
    ReadsBack buildOkxCancelBody (jsonMembers readNumber) CancelRequest.okxParams := by
  refine ReadsBack.of_params ?_ (fun c => by simp [CancelRequest.okxParams]) ?_
  · intro c body h
    have hparse := parseJsonNoDupKeys_compactText readNumber (buildOkxCancelBody_eq h) rfl
      (by simp [Json.noDup, Json.noDupMembers]) (by simp [Json.depth, Json.depthMembers,
        recursionLimit])
    rw [String.ofList_toList] at hparse
    simp only [jsonMembers, hparse, CancelRequest.okxParams]
  · intro c c' _ _ _ _ hparams
    cases c
    cases c'
    simpa [CancelRequest.okxParams] using hparams

/-- What each of the four builders writes is read back as the parameters of its request, every
name once and nothing else, and determines the request. How the parser reads numbers does not
matter, since there are none. -/
theorem order_builders_read_back (readNumber : List Char → Option (JsonNumber × List Char)) :
    ReadsBack buildBinanceOrderQuery formPairs OrderRequest.binanceParams ∧
      ReadsBack buildBinanceCancelQuery formPairs CancelRequest.binanceParams ∧
      ReadsBack buildOkxOrderBody (jsonMembers readNumber) OrderRequest.okxParams ∧
      ReadsBack buildOkxCancelBody (jsonMembers readNumber) CancelRequest.okxParams :=
  ⟨readsBack_buildBinanceOrderQuery, readsBack_buildBinanceCancelQuery,
    readsBack_buildOkxOrderBody readNumber, readsBack_buildOkxCancelBody readNumber⟩

/-- A limit order, with all its parameters. -/
theorem order_builders_read_back_limit :
    formPairs ("symbol=BTCUSDT&side=SELL&type=LIMIT&quantity=0.5&price=60000" ++
        "&timeInForce=GTC&reduceOnly=true&newClientOrderId=a-1") =
      some [("symbol", "BTCUSDT"), ("side", "SELL"), ("type", "LIMIT"), ("quantity", "0.5"),
        ("price", "60000"), ("timeInForce", "GTC"), ("reduceOnly", "true"),
        ("newClientOrderId", "a-1")] :=
  (order_builders_read_back fun _ => none).1.read_build
    { symbol := "BTCUSDT", side := "sell", qty := "0.5", ordType := "limit",
      price := some "60000", reduceOnly := true, clientOrderId := some "a-1" } _ (by decide)

end Signer
