import Signer.Sample

/-!
# What a Hyperliquid action may move

The whole batch of an action rides on one signature. It is checked in two passes: each order on its
own, which also totals the orders of each asset, and then the totals of assets with several orders.
-/

namespace Signer

variable {total : AssetTotal}

/-! ### The fields of an order -/

def hlAsset (order : Json) : Option UInt64 := (order.get "a").bind Json.asU64

def hlSize (order : Json) : Option String := (order.get "s").bind Json.asStr

def hlPrice (order : Json) : Option String := (order.get "p").bind Json.asStr

def assetOrders (asset : UInt64) (orders : List Json) : List Json :=
  orders.filter fun order => hlAsset order = some asset

/-- The exact sum of the sizes. -/
def sizeSum (orders : List Json) : ℚ :=
  (orders.map fun order => decimalValue ((hlSize order).getD "")).sum

def notionalSum (orders : List Json) : ℚ :=
  (orders.map fun order => decimalValue ((hlSize order).getD "") *
    decimalValue ((hlPrice order).getD "")).sum

/-- The first entry of an asset is the one that counts. -/
def hlCapOf (caps : List HlOrderCap) (asset : UInt64) : Option HlOrderCap :=
  caps.find? fun c => c.asset = asset

/-- What an order has passed on its own. -/
structure HlOrderWithin (caps : List HlOrderCap) (order : Json) (checked : HlOrder) : Prop where
  asset : hlAsset order = some checked.asset
  size : hlSize order = some checked.size
  cap : hlCapOf caps checked.asset = some checked.cap
  size_le : DecimalLE checked.size checked.cap.maxSize
  uncapped : checked.cap.maxNotional = none → checked.notional = none
  notional : ∀ cap, checked.cap.maxNotional = some cap →
    ((order.get "t").bind (Json.get "limit")).isSome = true ∧
    ∃ px, hlPrice order = some px ∧ checked.notional = some (checked.size, px) ∧
      isDecimal px = true ∧ isDecimal cap = true ∧
      decimalValue checked.size * decimalValue px ≤ decimalValue cap

theorem checkHlNotional_ok {order : Json} {size : String} {cap : HlOrderCap}
    {notional : Option (String × String)} (h : checkHlNotional order size cap = .ok notional) :
    (cap.maxNotional = none → notional = none) ∧ ∀ n, cap.maxNotional = some n →
      ((order.get "t").bind (Json.get "limit")).isSome = true ∧
      ∃ px, hlPrice order = some px ∧ notional = some (size, px) ∧
        isDecimal px = true ∧ isDecimal n = true ∧
        decimalValue size * decimalValue px ≤ decimalValue n := by
  unfold checkHlNotional at h
  cases hn : cap.maxNotional with
  | none =>
    obtain rfl : none = notional := by simpa [hn] using h
    simp
  | some n =>
    simp only [hn] at h
    split at h
    · cases h
    rename_i hlimit
    split at h
    · cases h
    rename_i px hpx
    cases hcheck : checkNotional .policyDenied size px n with
    | error code => simp [hcheck] at h
    | ok u =>
      obtain rfl : some (size, px) = notional := by simpa [hcheck] using h
      obtain ⟨hpxDecimal, hnDecimal, hle⟩ := checkNotional_ok hcheck
      have hsome : ((order.get "t").bind (Json.get "limit")).isSome = true := by
        rw [Option.isSome_iff_ne_none]
        intro hnone
        exact hlimit (by rw [hnone]; rfl)
      refine ⟨by simp, fun m hm => ?_⟩
      obtain rfl : n = m := Option.some.inj hm
      exact ⟨hsome, px, hpx, rfl, hpxDecimal, hnDecimal, hle⟩

variable {caps : List HlOrderCap}

theorem checkHlOrder_ok {order : Json} {checked : HlOrder}
    (h : checkHlOrder caps order = .ok checked) : HlOrderWithin caps order checked := by
  unfold checkHlOrder at h
  split at h
  · cases h
  rename_i asset hasset
  split at h
  · cases h
  rename_i size hsize
  split at h
  · cases h
  rename_i cap hcap
  cases hcheck : checkSize .policyDenied size cap.maxSize with
  | error code => simp [hcheck] at h
  | ok u =>
    cases hnotional : checkHlNotional order size cap with
    | error code => simp [hcheck, hnotional] at h
    | ok notional =>
      obtain rfl : (⟨asset, cap, size, notional⟩ : HlOrder) = checked := by
        simpa [hcheck, hnotional] using h
      obtain ⟨huncapped, hcapped⟩ := checkHlNotional_ok hnotional
      exact ⟨hasset, hsize, hcap, checkSize_ok hcheck, huncapped, hcapped⟩

/-! ### Totals -/

def checkedOrders (caps : List HlOrderCap) (orders : List Json) : List HlOrder :=
  orders.filterMap fun order => (checkHlOrder caps order).toOption

/-- Every order passes on its own. -/
def AllChecked (caps : List HlOrderCap) (orders : List Json) : Prop :=
  ∀ order ∈ orders, ∃ checked, checkHlOrder caps order = .ok checked

/-- The totals list each asset once, with the sizes and notionals of its orders. -/
structure TotalsOf (checked : List HlOrder) (totals : List AssetTotal) : Prop where
  nodup : (totals.map AssetTotal.asset).Nodup
  complete : ∀ order ∈ checked, order.asset ∈ totals.map AssetTotal.asset
  cap : ∀ total ∈ totals, ∃ order ∈ checked, order.asset = total.asset ∧ order.cap = total.cap
  sizes : ∀ total ∈ totals,
    total.sizes = (checked.filter fun order => order.asset = total.asset).map HlOrder.size
  notionals : ∀ total ∈ totals, total.notionals =
    (checked.filter fun order => order.asset = total.asset).filterMap HlOrder.notional

def AssetTotal.push (total : AssetTotal) (order : HlOrder) : AssetTotal :=
  { total with
    sizes := total.sizes ++ [order.size]
    notionals := total.notionals ++ order.notional.toList }

variable {totals : List AssetTotal}

theorem addHlOrder_eq {order : HlOrder}
    (hnodup : (totals.map AssetTotal.asset).Nodup) :
    addHlOrder order totals =
      if order.asset ∈ totals.map AssetTotal.asset then
        totals.map fun total => if total.asset = order.asset then total.push order else total
      else totals ++ [⟨order.asset, order.cap, [order.size], order.notional.toList⟩] := by
  induction totals with
  | nil => simp [addHlOrder]
  | cons total totals ih =>
    rw [List.map_cons, List.nodup_cons] at hnodup
    rw [addHlOrder]
    by_cases hsame : total.asset = order.asset
    · -- no later total is of the same asset
      have hrest : (totals.map fun other =>
          if other.asset = order.asset then other.push order else other) = totals := by
        refine (List.map_congr_left fun other hother => ?_).trans (List.map_id totals)
        have hne : other.asset ≠ order.asset := by
          intro heq
          apply hnodup.1
          rw [hsame, ← heq]
          exact List.mem_map_of_mem hother
        exact if_neg hne
      rw [if_pos hsame, if_pos (by simp [hsame]), List.map_cons, if_pos hsame, hrest]
      rfl
    · have hne : ¬ order.asset = total.asset := fun h => hsame h.symm
      rw [if_neg hsame, ih hnodup.2]
      by_cases hmem : order.asset ∈ totals.map AssetTotal.asset
      · rw [if_pos hmem, if_pos (by simp [hmem]), List.map_cons, if_neg hsame]
      · rw [if_neg hmem, if_neg (by simpa [hne] using hmem)]
        rfl

theorem filter_append_singleton (asset : UInt64) (checked : List HlOrder) (order : HlOrder) :
    (checked ++ [order]).filter (fun o => o.asset = asset) =
      checked.filter (fun o => o.asset = asset) ++ if order.asset = asset then [order] else [] := by
  by_cases h : order.asset = asset <;> simp [List.filter_append, h]

theorem TotalsOf.add {checked : List HlOrder}
    (h : TotalsOf checked totals) (order : HlOrder) :
    TotalsOf (checked ++ [order]) (addHlOrder order totals) := by
  rw [addHlOrder_eq h.nodup]
  by_cases hmem : order.asset ∈ totals.map AssetTotal.asset
  · rw [if_pos hmem]
    have hasset : ∀ total : AssetTotal,
        (if total.asset = order.asset then total.push order else total).asset = total.asset := by
      intro total
      split <;> rfl
    have hassets : (totals.map fun total => if total.asset = order.asset then total.push order
        else total).map AssetTotal.asset = totals.map AssetTotal.asset := by
      rw [List.map_map]
      exact List.map_congr_left fun total _ => hasset total
    refine ⟨by rw [hassets]; exact h.nodup, ?_, ?_, ?_, ?_⟩
    · intro o ho
      rw [hassets]
      rcases List.mem_append.mp ho with ho | ho
      · exact h.complete o ho
      · rwa [List.mem_singleton.mp ho]
    all_goals
      intro total' htotal'
      obtain ⟨total, htotal, rfl⟩ := List.mem_map.mp htotal'
    · obtain ⟨o, ho, hoasset, hocap⟩ := h.cap total htotal
      refine ⟨o, List.mem_append_left _ ho, by rw [hasset, hoasset], ?_⟩
      rw [hocap]
      split <;> rfl
    · rw [hasset, filter_append_singleton, List.map_append, ← h.sizes total htotal]
      by_cases hsame : total.asset = order.asset
      · simp [hsame, AssetTotal.push]
      · have hne : ¬ order.asset = total.asset := fun heq => hsame heq.symm
        simp [hsame, hne]
    · rw [hasset, filter_append_singleton, List.filterMap_append, ← h.notionals total htotal]
      by_cases hsame : total.asset = order.asset
      · cases hn : order.notional <;> simp [hsame, hn, AssetTotal.push]
      · have hne : ¬ order.asset = total.asset := fun heq => hsame heq.symm
        simp [hsame, hne]
  · rw [if_neg hmem]
    -- the asset had no order before
    have hnone : checked.filter (fun o => o.asset = order.asset) = [] := by
      rw [List.filter_eq_nil_iff]
      intro o ho heq
      exact hmem (by rw [← of_decide_eq_true heq]; exact h.complete o ho)
    have hother : ∀ total ∈ totals, order.asset ≠ total.asset := by
      intro total htotal heq
      exact hmem (by rw [heq]; exact List.mem_map_of_mem htotal)
    refine ⟨?_, ?_, ?_, ?_, ?_⟩
    · rw [List.map_append, List.nodup_append]
      refine ⟨h.nodup, by simp, ?_⟩
      rintro a ha b hb rfl
      obtain rfl : a = order.asset := by simpa using hb
      exact hmem ha
    · intro o ho
      rw [List.map_append, List.mem_append]
      rcases List.mem_append.mp ho with ho | ho
      · exact .inl (h.complete o ho)
      · exact .inr (by simp [List.mem_singleton.mp ho])
    · intro total htotal
      rcases List.mem_append.mp htotal with htotal | htotal
      · obtain ⟨o, ho, hrest⟩ := h.cap total htotal
        exact ⟨o, List.mem_append_left _ ho, hrest⟩
      · rw [List.mem_singleton.mp htotal]
        exact ⟨order, by simp, rfl, rfl⟩
    · intro total htotal
      rw [filter_append_singleton]
      rcases List.mem_append.mp htotal with htotal | htotal
      · simp [h.sizes total htotal, hother total htotal]
      · simp [List.mem_singleton.mp htotal, hnone]
    · intro total htotal
      rw [filter_append_singleton]
      rcases List.mem_append.mp htotal with htotal | htotal
      · simp [h.notionals total htotal, hother total htotal]
      · rw [List.mem_singleton.mp htotal]
        cases hn : order.notional <;> simp [hnone, hn]

theorem totalsOf_foldl {before : List HlOrder}
    (h : TotalsOf before totals) (checked : List HlOrder) :
    TotalsOf (before ++ checked)
      (checked.foldl (fun totals order => addHlOrder order totals) totals) := by
  induction checked generalizing before totals with
  | nil => simpa using h
  | cons order checked ih =>
    have hnext := ih (h.add order)
    rwa [List.append_assoc, List.singleton_append] at hnext

variable {orders : List Json}

theorem collectHlOrders_ok_iff
    {totals totals' : List AssetTotal} :
    collectHlOrders caps totals orders = .ok totals' ↔ AllChecked caps orders ∧
      totals' = (checkedOrders caps orders).foldl (fun totals order => addHlOrder order totals)
        totals := by
  induction orders generalizing totals with
  | nil => simp [collectHlOrders, AllChecked, checkedOrders, eq_comm]
  | cons order orders ih =>
    rw [collectHlOrders]
    cases hcheck : checkHlOrder caps order with
    | error code =>
      have hnot : ¬ AllChecked caps (order :: orders) := by
        intro hall
        obtain ⟨checked, hchecked⟩ := hall order List.mem_cons_self
        rw [hcheck] at hchecked
        cases hchecked
      simp [hnot]
    | ok checked =>
      have hall : AllChecked caps (order :: orders) ↔ AllChecked caps orders := by
        simp [AllChecked, hcheck]
      have hcons : checkedOrders caps (order :: orders) = checked :: checkedOrders caps orders := by
        simp [checkedOrders, hcheck, Except.toOption]
      rw [hall, hcons, List.foldl_cons]
      exact ih

/-! ### Sums -/

theorem sum_checkedOrders {f : HlOrder → ℚ}
    {g : Json → ℚ} (hall : AllChecked caps orders) (asset : UInt64)
    (hfg : ∀ order checked, HlOrderWithin caps order checked → checked.asset = asset →
      f checked = g order) :
    (((checkedOrders caps orders).filter fun o => o.asset = asset).map f).sum =
      ((assetOrders asset orders).map g).sum := by
  induction orders with
  | nil => rfl
  | cons order orders ih =>
    obtain ⟨checked, hcheck⟩ := hall order List.mem_cons_self
    have hwithin := checkHlOrder_ok hcheck
    have hrest := ih fun other hother => hall other (List.mem_cons_of_mem _ hother)
    have hcons : checkedOrders caps (order :: orders) = checked :: checkedOrders caps orders := by
      simp [checkedOrders, hcheck, Except.toOption]
    have hsame : hlAsset order = some asset ↔ checked.asset = asset := by
      rw [hwithin.asset, Option.some.injEq]
    rw [hcons, assetOrders, List.filter_cons, List.filter_cons]
    by_cases h : checked.asset = asset
    · simp only [h, hsame.mpr h, decide_true, if_true, List.map_cons, List.sum_cons]
      rw [hfg order checked hwithin h, hrest]
      rfl
    · have hne : ¬ hlAsset order = some asset := fun heq => h (hsame.mp heq)
      simp only [h, hne, decide_false, Bool.false_eq_true, if_false]
      exact hrest

theorem sum_filterMap {α β : Type} (f : α → Option β) (value : β → ℚ) (items : List α) :
    ((items.filterMap f).map value).sum =
      (items.map fun item => ((f item).map value).getD 0).sum := by
  induction items with
  | nil => rfl
  | cons item items ih => cases hitem : f item <;> simp [hitem, ih]

theorem sum_le_of_length_le_one {values : List ℚ} {cap : ℚ} (hcap : 0 ≤ cap)
    (hvalues : ∀ v ∈ values, v ≤ cap) (hlen : values.length ≤ 1) : values.sum ≤ cap := by
  match values, hlen with
  | [], _ => simpa using hcap
  | [v], _ => simpa using hvalues v

/-- Every single order of the total is within the cap. -/
structure AssetTotal.Checked (total : AssetTotal) : Prop where
  sizes : ∀ v ∈ total.sizes, DecimalLE v total.cap.maxSize
  notionals : ∀ pair ∈ total.notionals, ∃ n, total.cap.maxNotional = some n ∧
    isDecimal pair.1 = true ∧ isDecimal pair.2 = true ∧ isDecimal n = true ∧
    decimalValue pair.1 * decimalValue pair.2 ≤ decimalValue n

/-- The exact sums are within the cap. -/
def AssetTotal.Within (total : AssetTotal) : Prop :=
  (total.sizes.map decimalValue).sum ≤ decimalValue total.cap.maxSize ∧
    ∀ n, total.cap.maxNotional = some n →
      (total.notionals.map fun pair => decimalValue pair.1 * decimalValue pair.2).sum ≤
        decimalValue n

theorem checkTotal_ok_iff {b : Bool} {policyAlone : Option Bool} :
    checkTotal (some b) policyAlone = .ok () ↔ b = false := by
  cases b <;> simp [checkTotal]

theorem sizes_within_iff (h : total.Checked) :
    (if 1 < total.sizes.length then
      checkTotal (sumExceeds total.sizes total.cap.maxSize) (sumExceeds ["1"] total.cap.maxSize)
      else .ok ()) = .ok () ↔
      (total.sizes.map decimalValue).sum ≤ decimalValue total.cap.maxSize := by
  by_cases hlen : 1 < total.sizes.length
  · obtain ⟨v, hv⟩ := List.exists_mem_of_length_pos (by omega : 0 < total.sizes.length)
    rw [if_pos hlen, sumExceeds_eq (fun v hv => (h.sizes v hv).left) (h.sizes v hv).right,
      checkTotal_ok_iff, decide_eq_false_iff_not, not_lt]
  · rw [if_neg hlen]
    refine iff_of_true rfl (sum_le_of_length_le_one (decimalValue_nonneg _) ?_ (by simpa using hlen))
    intro q hq
    obtain ⟨v, hv, rfl⟩ := List.mem_map.mp hq
    exact (h.sizes v hv).le

theorem notionals_within_iff (h : total.Checked) :
    (if 1 < total.notionals.length then
      match total.cap.maxNotional with
      | none => .error .internalError
      | some maxNotional =>
        checkTotal (notionalSumExceeds total.notionals maxNotional)
          (notionalSumExceeds [("1", "1")] maxNotional)
      else .ok ()) = (.ok () : Except ErrCode Unit) ↔
      ∀ n, total.cap.maxNotional = some n →
        (total.notionals.map fun pair => decimalValue pair.1 * decimalValue pair.2).sum ≤
          decimalValue n := by
  by_cases hlen : 1 < total.notionals.length
  · obtain ⟨pair, hpair⟩ := List.exists_mem_of_length_pos (by omega : 0 < total.notionals.length)
    obtain ⟨n, hn, -, -, hnDecimal, -⟩ := h.notionals pair hpair
    have hpairs : ∀ pair ∈ total.notionals, isDecimal pair.1 = true ∧ isDecimal pair.2 = true := by
      intro pair hpair
      obtain ⟨_, -, hqty, hpx, -⟩ := h.notionals pair hpair
      exact ⟨hqty, hpx⟩
    rw [if_pos hlen, hn]
    simp only [notionalSumExceeds_eq hpairs hnDecimal, checkTotal_ok_iff, decide_eq_false_iff_not,
      not_lt, Option.some.injEq, forall_eq']
  · rw [if_neg hlen]
    refine iff_of_true rfl fun n hn => ?_
    refine sum_le_of_length_le_one (decimalValue_nonneg _) ?_ (by simpa using hlen)
    intro q hq
    obtain ⟨pair, hpair, rfl⟩ := List.mem_map.mp hq
    obtain ⟨m, hm, -, -, -, hle⟩ := h.notionals pair hpair
    obtain rfl : m = n := Option.mem_unique hm hn
    exact hle

theorem checkHlTotal_ok_iff (h : total.Checked) :
    checkHlTotal total = .ok () ↔ total.Within := by
  rw [AssetTotal.Within, ← sizes_within_iff h, ← notionals_within_iff h, checkHlTotal]
  split
  · rename_i code hsizes
    simp [hsizes]
  · rename_i hsizes
    exact ⟨fun hnotionals => ⟨hsizes, hnotionals⟩, fun hboth => hboth.2⟩

theorem checkHlTotals_ok_iff :
    checkHlTotals totals = .ok () ↔ ∀ total ∈ totals, checkHlTotal total = .ok () := by
  induction totals with
  | nil => simp [checkHlTotals]
  | cons total totals ih =>
    rw [checkHlTotals]
    cases hcheck : checkHlTotal total with
    | error code => simp [hcheck]
    | ok u => simp [hcheck, ih]

/-! ### Batches -/

/-- Every order passes on its own, and for every asset the sums are within its first entry. -/
structure BatchWithin (caps : List HlOrderCap) (orders : List Json) : Prop where
  each : AllChecked caps orders
  sums : ∀ asset cap, hlCapOf caps asset = some cap →
    sizeSum (assetOrders asset orders) ≤ decimalValue cap.maxSize ∧
      ∀ n, cap.maxNotional = some n → notionalSum (assetOrders asset orders) ≤ decimalValue n

theorem exists_of_mem_checkedOrders {o : HlOrder}
    (h : o ∈ checkedOrders caps orders) : ∃ order ∈ orders, HlOrderWithin caps order o := by
  obtain ⟨order, horder, hchecked⟩ := List.mem_filterMap.mp h
  refine ⟨order, horder, checkHlOrder_ok ?_⟩
  cases hcheck : checkHlOrder caps order with
  | error code => simp [hcheck, Except.toOption] at hchecked
  | ok checked =>
    obtain rfl : checked = o := by simpa [hcheck, Except.toOption] using hchecked
    rfl

section

variable {caps : List HlOrderCap} {orders : List Json} {totals : List AssetTotal}

theorem TotalsOf.capOf (h : TotalsOf (checkedOrders caps orders) totals) (htotal : total ∈ totals) :
    hlCapOf caps total.asset = some total.cap := by
  obtain ⟨o, ho, hasset, hcap⟩ := h.cap total htotal
  obtain ⟨order, -, hwithin⟩ := exists_of_mem_checkedOrders ho
  rw [← hasset, ← hcap]
  exact hwithin.cap

theorem TotalsOf.checked (h : TotalsOf (checkedOrders caps orders) totals) (htotal : total ∈ totals) :
    total.Checked := by
  have hcapOf := h.capOf htotal
  -- every order in the total was checked against the entry of the total
  have hmember : ∀ o ∈ (checkedOrders caps orders).filter (fun o => o.asset = total.asset),
      o.cap = total.cap ∧ ∃ order, HlOrderWithin caps order o := by
    intro o ho
    obtain ⟨hmem, hasset⟩ := List.mem_filter.mp ho
    obtain ⟨order, -, hwithin⟩ := exists_of_mem_checkedOrders hmem
    have hcap := hwithin.cap
    rw [of_decide_eq_true hasset, hcapOf] at hcap
    exact ⟨(Option.some.inj hcap).symm, order, hwithin⟩
  constructor
  · intro v hv
    rw [h.sizes total htotal] at hv
    obtain ⟨o, ho, rfl⟩ := List.mem_map.mp hv
    obtain ⟨hcap, order, hwithin⟩ := hmember o ho
    rw [← hcap]
    exact hwithin.size_le
  · intro pair hpair
    rw [h.notionals total htotal] at hpair
    obtain ⟨o, ho, hnotional⟩ := List.mem_filterMap.mp hpair
    obtain ⟨hcap, order, hwithin⟩ := hmember o ho
    rw [← hcap]
    cases hn : o.cap.maxNotional with
    | none =>
      rw [hwithin.uncapped hn] at hnotional
      cases hnotional
    | some n =>
      obtain ⟨-, px, -, hpairEq, hpx, hnDecimal, hle⟩ := hwithin.notional n hn
      obtain rfl : (o.size, px) = pair := Option.mem_unique hpairEq hnotional
      exact ⟨n, rfl, hwithin.size_le.left, hpx, hnDecimal, hle⟩

theorem TotalsOf.within_iff (h : TotalsOf (checkedOrders caps orders) totals)
    (hall : AllChecked caps orders) (htotal : total ∈ totals) :
    total.Within ↔ sizeSum (assetOrders total.asset orders) ≤ decimalValue total.cap.maxSize ∧
      ∀ n, total.cap.maxNotional = some n →
        notionalSum (assetOrders total.asset orders) ≤ decimalValue n := by
  have hsizes : (total.sizes.map decimalValue).sum = sizeSum (assetOrders total.asset orders) := by
    rw [h.sizes total htotal, List.map_map, sizeSum]
    refine sum_checkedOrders hall total.asset fun order checked hwithin _ => ?_
    simp [hwithin.size]
  have hnotionals : ∀ n, total.cap.maxNotional = some n →
      (total.notionals.map fun pair => decimalValue pair.1 * decimalValue pair.2).sum =
        notionalSum (assetOrders total.asset orders) := by
    intro n hn
    -- under the cap every order of the asset has a price
    have hpairs : ∀ order checked, HlOrderWithin caps order checked →
        checked.asset = total.asset → ∃ px, hlPrice order = some px ∧
          checked.notional = some (checked.size, px) := by
      intro order checked hwithin hasset
      have hcap := hwithin.cap
      rw [hasset, h.capOf htotal] at hcap
      rw [Option.some.inj hcap] at hn
      obtain ⟨-, px, hpx, hnotional, -⟩ := hwithin.notional n hn
      exact ⟨px, hpx, hnotional⟩
    rw [h.notionals total htotal, sum_filterMap, notionalSum]
    refine sum_checkedOrders hall total.asset fun order checked hwithin hasset => ?_
    obtain ⟨px, hpx, hnotional⟩ := hpairs order checked hwithin hasset
    simp [hnotional, hpx, hwithin.size]
  rw [AssetTotal.Within, hsizes]
  constructor
  · rintro ⟨hsize, hnotional⟩
    exact ⟨hsize, fun n hn => by rw [← hnotionals n hn]; exact hnotional n hn⟩
  · rintro ⟨hsize, hnotional⟩
    exact ⟨hsize, fun n hn => by rw [hnotionals n hn]; exact hnotional n hn⟩

theorem sums_of_no_orders {asset : UInt64} (h : assetOrders asset orders = []) (size : String) :
    sizeSum (assetOrders asset orders) ≤ decimalValue size ∧
      ∀ n, notionalSum (assetOrders asset orders) ≤ decimalValue n := by
  simp [h, sizeSum, notionalSum, decimalValue_nonneg]

/-- The two passes accept exactly the batches within the caps. -/
theorem checkHlBatch_ok_iff : checkHlBatch caps orders = .ok () ↔ BatchWithin caps orders := by
  have hempty : TotalsOf [] [] := ⟨List.nodup_nil, by simp, by simp, by simp, by simp⟩
  have htotals := totalsOf_foldl hempty (checkedOrders caps orders)
  rw [List.nil_append] at htotals
  have hcollect : ∀ totals, collectHlOrders caps [] orders = .ok totals ↔ _ :=
    fun totals => collectHlOrders_ok_iff
  generalize (checkedOrders caps orders).foldl (fun totals order => addHlOrder order totals) [] =
    totals at htotals hcollect
  by_cases hall : AllChecked caps orders
  · rw [checkHlBatch, (hcollect totals).mpr ⟨hall, rfl⟩]
    simp only [checkHlTotals_ok_iff]
    have hwithin : (∀ total ∈ totals, checkHlTotal total = .ok ()) ↔
        ∀ total ∈ totals, total.Within :=
      forall₂_congr fun total htotal => checkHlTotal_ok_iff (htotals.checked htotal)
    rw [hwithin]
    constructor
    · intro hsums
      refine ⟨hall, fun asset cap hcap => ?_⟩
      by_cases hnone : assetOrders asset orders = []
      · exact ⟨(sums_of_no_orders hnone _).1, fun n _ => (sums_of_no_orders hnone n).2 n⟩
      · -- the asset has an order, so it has a total, and the total has this entry
        obtain ⟨order, horder⟩ := List.exists_mem_of_ne_nil _ hnone
        obtain ⟨hmem, hasset⟩ := List.mem_filter.mp horder
        obtain ⟨checked, hcheck⟩ := hall order hmem
        have hchecked : checked ∈ checkedOrders caps orders :=
          List.mem_filterMap.mpr ⟨order, hmem, by rw [hcheck]; rfl⟩
        have hassetEq : checked.asset = asset := by
          have h := (checkHlOrder_ok hcheck).asset
          rw [of_decide_eq_true hasset] at h
          exact (Option.some.inj h).symm
        obtain ⟨total, htotal, htotalAsset⟩ := List.mem_map.mp (htotals.complete checked hchecked)
        have hcapEq := htotals.capOf htotal
        rw [htotalAsset, hassetEq, hcap] at hcapEq
        have hsum := (htotals.within_iff hall htotal).mp (hsums total htotal)
        rwa [htotalAsset, hassetEq, ← Option.some.inj hcapEq] at hsum
    · intro hbatch total htotal
      exact (htotals.within_iff hall htotal).mpr
        (hbatch.sums total.asset total.cap (htotals.capOf htotal))
  · have hfails : ∀ totals', collectHlOrders caps [] orders ≠ .ok totals' :=
      fun totals' h => hall ((hcollect totals').mp h).1
    refine iff_of_false ?_ fun hbatch => hall hbatch.each
    rw [checkHlBatch]
    cases hrun : collectHlOrders caps [] orders with
    | error code => simp
    | ok totals' => exact absurd hrun (hfails totals')

/-- In whatever order the orders are listed. -/
theorem BatchWithin.perm {orders' : List Json} (hperm : orders.Perm orders')
    (h : BatchWithin caps orders) : BatchWithin caps orders' := by
  have hassets : ∀ asset, (assetOrders asset orders).Perm (assetOrders asset orders') :=
    fun asset => hperm.filter _
  refine ⟨fun order horder => h.each order (hperm.mem_iff.mpr horder), fun asset cap hcap => ?_⟩
  obtain ⟨hsize, hnotional⟩ := h.sums asset cap hcap
  have hsizeEq : sizeSum (assetOrders asset orders) = sizeSum (assetOrders asset orders') :=
    ((hassets asset).map _).sum_eq
  have hnotionalEq : notionalSum (assetOrders asset orders) =
      notionalSum (assetOrders asset orders') := ((hassets asset).map _).sum_eq
  rw [hsizeEq] at hsize
  rw [hnotionalEq] at hnotional
  exact ⟨hsize, hnotional⟩

end

end Signer
