import Signer.CanonicalText
import Signer.Sample
import Signer.Text.Hex
import Signer.Text.Utf8

/-!
# The parameters of a signed Asterdex body

The checks on a body look for `name=` in its bytes. The venue splits the body. What the checks
found is what splitting gives, for every body; the byte positions they cut at always stand between
characters.
-/

namespace Signer

open Text

variable {body : String} {p : Policy} {caps : List OrderAssetCap}

/-! ### The bytes of a body -/

namespace Sample

def traderBody : String :=
  "symbol=BTCUSDT&side=BUY&type=LIMIT&quantity=0.25&price=64000.5&nonce=1700000000000&signer=" ++
    traderWallet

end Sample

/-- Splitting the body gives listed names, at most one quantity, and an order within its entry. -/
structure AsterdexWithin (caps : List OrderAssetCap) (body : String) : Prop where
  names : ∀ piece ∈ pieces body, piece ≠ "" → ∃ name value,
    splitOnce '=' piece = some (name, value) ∧ name ∈ asterdexAllowedParams
  quantity : (assigned "quantity" body).length ≤ 1
  within : ∀ qty ∈ assigned "quantity" body, ∃ symbol entry,
    assigned "symbol" body = [symbol] ∧
    caps.find? (fun c => c.symbol = symbol) = some entry ∧ DecimalLE qty entry.maxQty ∧
    ∀ cap, entry.maxNotional = some cap → assigned "type" body = ["LIMIT"] ∧ ∃ px,
      assigned "price" body = [px] ∧ isDecimal px = true ∧ isDecimal cap = true ∧
      decimalValue qty * decimalValue px ≤ decimalValue cap

theorem assigned_of_asterdexFirstParam {name : String} {found : Option String}
    (hname : '=' ∉ name.toList) (hamp : NoAmp name)
    (h : asterdexFirstParam body (name ++ "=") = .ok found) :
    assigned name body = found.toList := by
  unfold asterdexFirstParam at h
  split at h
  · rename_i hcut
    cases h
    exact assigned_eq_nil_of_not_infix (cut_eq_none_iff.mp hcut)
  · rename_i before after hcut
    split at h
    · cases h
    rename_i hbound
    split at h
    · cases h
    rename_i hagain
    cases h
    exact assigned_of_cut hname hamp hcut (by simpa using hbound)
      (Bool.not_eq_true _ ▸ hagain)

theorem names_of_checkAsterdexParams {parts : List String} (h : checkAsterdexParams parts = .ok ()) :
    ∀ piece ∈ parts, piece ≠ "" → ∃ name value,
      splitOnce '=' piece = some (name, value) ∧ name ∈ asterdexAllowedParams := by
  induction parts with
  | nil => simp
  | cons pair rest ih =>
    intro piece hpiece hne
    rw [checkAsterdexParams] at h
    by_cases hempty : pair = ""
    · rw [if_pos hempty] at h
      rcases List.mem_cons.mp hpiece with rfl | hrest
      · exact absurd hempty hne
      · exact ih h piece hrest hne
    · rw [if_neg hempty] at h
      cases hsplit : splitOnce '=' pair with
      | none => simp [hsplit] at h
      | some parts =>
        obtain ⟨name, value⟩ := parts
        simp only [hsplit] at h
        by_cases hlisted : name ∈ asterdexAllowedParams
        · rw [if_neg (not_not.mpr hlisted)] at h
          rcases List.mem_cons.mp hpiece with rfl | hrest
          · exact ⟨name, value, hsplit, hlisted⟩
          · exact ih h piece hrest hne
        · rw [if_pos hlisted] at h
          cases h

theorem enforceAsterdexSizeCap_ok (hcaps : p.orderCaps = some caps)
    (h : enforceAsterdexSizeCap (some p) body = .ok ()) :
    checkAsterdexBodyAllow body = .ok () ∧ ∃ qty, asterdexFirstParam body "quantity=" = .ok qty ∧
      ∀ q, qty = some q → ∃ symbol price, asterdexFirstParam body "symbol=" = .ok (some symbol) ∧
        asterdexPrice caps symbol body = .ok price ∧
        enforceOrderCap (some p) symbol (some q) price = .ok () := by
  simp only [enforceAsterdexSizeCap, Option.bind_some, hcaps] at h
  split at h
  · cases h
  split at h
  · cases h
  split at h
  · cases h
  split at h
  · cases h
  rename_i hallow
  have hallow' : checkAsterdexBodyAllow body = .ok () := by
    cases hcheck : checkAsterdexBodyAllow body with
    | error reason => simp [hcheck, Except.toOption] at hallow
    | ok u => rfl
  refine ⟨hallow', ?_⟩
  split at h
  · cases h
  · rename_i hqty
    exact ⟨none, hqty, by simp⟩
  · rename_i qty hqty
    refine ⟨some qty, hqty, fun q hq => ?_⟩
    obtain rfl : qty = q := Option.some.inj hq
    split at h
    · cases h
    · cases h
    rename_i symbol hsymbol
    split at h
    · cases h
    rename_i price hprice
    exact ⟨symbol, price, hsymbol, hprice, h⟩

theorem asterdexPrice_ok {symbol : String} {price : Option String} {entry : OrderAssetCap}
    {cap : String} (hentry : caps.find? (fun c => c.symbol = symbol) = some entry)
    (hcap : entry.maxNotional = some cap) (h : asterdexPrice caps symbol body = .ok price) :
    asterdexFirstParam body "type=" = .ok (some "LIMIT") ∧
      asterdexFirstParam body "price=" = .ok price := by
  simp only [asterdexPrice, hentry, Option.bind_some, hcap, Option.isSome_some, if_true] at h
  split at h
  · cases h
  rename_i type htype
  split at h
  · cases h
  rename_i hlimit
  obtain rfl : type = some "LIMIT" := not_not.mp hlimit
  split at h
  · cases h
  rename_i found hprice
  obtain rfl : found = price := by simpa using h
  exact ⟨htype, hprice⟩

theorem asterdexWithin_of_enforce (hcaps : p.orderCaps = some caps)
    (h : enforceAsterdexSizeCap (some p) body = .ok ()) :
    AsterdexWithin caps body := by
  obtain ⟨hallow, found, hqty, horder⟩ := enforceAsterdexSizeCap_ok hcaps h
  have hparam : ∀ name ∈ ["quantity", "symbol", "type", "price"], ∀ {found : Option String},
      asterdexFirstParam body (name ++ "=") = .ok found →
        assigned name body = found.toList := by
    intro name hname found
    have hplain : '=' ∉ name.toList ∧ '&' ∉ name.toList := by
      revert name
      decide
    exact assigned_of_asterdexFirstParam hplain.1 hplain.2
  have hquantity := hparam "quantity" (by decide) hqty
  refine ⟨names_of_checkAsterdexParams hallow, ?_, ?_⟩
  · rw [hquantity]
    cases found <;> simp
  · intro qty hmem
    rw [hquantity, Option.mem_toList] at hmem
    obtain ⟨symbol, price, hsymbol, hprice, hcap⟩ := horder qty hmem
    obtain ⟨entry, hentry, hwithin⟩ := enforceOrderCap_ok hcaps hcap
    refine ⟨symbol, entry, hparam "symbol" (by decide) hsymbol, hentry, hwithin.size,
      fun cap hnotional => ?_⟩
    obtain ⟨px, rfl, hdecimal⟩ := hwithin.notional cap hnotional
    obtain ⟨htype, hpx⟩ := asterdexPrice_ok hentry hnotional hprice
    exact ⟨hparam "type" (by decide) htype, px, hparam "price" (by decide) hpx, hdecimal⟩

/-- Whatever Asterdex body is signed under a policy with order caps, splitting it gives what the
caps were checked against. -/
theorem asterdex_signature_within_caps {env : Env} {amb : Ambient} {req : SignRequest}
    {identity : ResolvedIdentity} {s s' : Enclave} {resp : SignResponse} {t : List Event}
    {p : Policy} {caps : List OrderAssetCap} {key : Bytes} {body : String}
    (hrun : (handleSignAsterdex env amb req identity).Returns s resp s' t)
    (hpolicy : some p ∈ acceptedPolicies t) (hcaps : p.orderCaps = some caps)
    (hsigned : .signed (.asterdex key body) ∈ t) : AsterdexWithin caps body := by
  obtain ⟨_, body', blob, _, _, _, _, -, -, -, -, -, -, -, -, hcap, -, -, -, -, -, rfl⟩ :=
    handleSignAsterdex_signs.mp ⟨resp, hrun⟩
  have hp : some p = blob.policy := by simpa using hpolicy
  obtain ⟨rfl, rfl⟩ : key = _ ∧ body = body' := by simpa using hsigned
  rw [← hp] at hcap
  exact asterdexWithin_of_enforce hcaps hcap

namespace Sample

def cappedTrader : Answers :=
  traderAnswers cappedPolicy (cappedPolicyText "") "signer_address"

def traderOrder : SignRequest :=
  { request .signAsterdex with
    method := some "POST"
    path := some "/fapi/v3/order"
    body := some traderBody }

end Sample

open Sample in
/-- The order of the trader is signed, and within the cap. -/
theorem asterdex_signature_within_caps_limitOrder :
    ∃ resp s' t, (handleSignAsterdex (env cappedTrader) {} traderOrder
        (identity ["asterdex"] .active)).Returns {} resp s' t ∧
      (∃ key, .signed (.asterdex key traderBody) ∈ t) ∧
      AsterdexWithin [⟨"BTCUSDT", "0.5", some "40000"⟩] traderBody := by
  obtain ⟨resp, s', t, hrun, hpolicy⟩ : ∃ resp s' t,
      (handleSignAsterdex (env cappedTrader) {} traderOrder
        (identity ["asterdex"] .active)).Returns {} resp s' t ∧
      some cappedPolicy ∈ acceptedPolicies t :=
    Proc.exists_returns_of_run (by decide +kernel)
  obtain ⟨_, body, blob, _, _, key, _, -, hbody, -, -, -, -, -, -, -, -, -, -, -, -, ht⟩ :=
    handleSignAsterdex_signs.mp ⟨resp, hrun⟩
  obtain rfl : traderBody = body := Option.some.inj hbody
  have hsigned : .signed (.asterdex key.1 traderBody) ∈ t := by simp [ht]
  exact ⟨resp, s', t, hrun, ⟨_, hsigned⟩, asterdex_signature_within_caps hrun hpolicy rfl hsigned⟩

end Signer
