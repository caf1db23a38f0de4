import Signer.Serde

/-!
# Reading policies

The deserializers derived for the enclave's policy and its clauses. A clause denies unknown fields,
the policy itself does not. What the serializer writes is read back.
-/

namespace Signer

open Serde

def X402Policy.names : List String :=
  ["chain_id", "token_address", "max_value", "allowed_recipients"]

/-- The deserializer of `X402Policy`. -/
def X402Policy.read : Reader X402Policy := fun v => do
  let found ← record names true v
  let chainId ← optional u64 (found.lookup "chain_id")
  let tokenAddress ← optional string (found.lookup "token_address")
  let maxValue ← optional string (found.lookup "max_value")
  let allowedRecipients ← optional (list string) (found.lookup "allowed_recipients")
  pure { chainId, tokenAddress, maxValue, allowedRecipients }

def Permit2Policy.names : List String :=
  ["chain_id", "verifying_contract", "allowed_tokens", "allowed_spenders", "max_amount",
    "max_expiration"]

/-- The deserializer of `Permit2Policy`. -/
def Permit2Policy.read : Reader Permit2Policy := fun v => do
  let found ← record names true v
  let chainId ← optional u64 (found.lookup "chain_id")
  let verifyingContract ← optional string (found.lookup "verifying_contract")
  let allowedTokens ← optional (list string) (found.lookup "allowed_tokens")
  let allowedSpenders ← optional (list string) (found.lookup "allowed_spenders")
  let maxAmount ← optional string (found.lookup "max_amount")
  let maxExpiration ← optional u64 (found.lookup "max_expiration")
  pure { chainId, verifyingContract, allowedTokens, allowedSpenders, maxAmount, maxExpiration }

def OrderAssetCap.names : List String := ["symbol", "max_qty", "max_notional"]

/-- The deserializer of `OrderAssetCap`. -/
def OrderAssetCap.read : Reader OrderAssetCap := fun v => do
  let found ← record names true v
  let symbol ← mandatory string (found.lookup "symbol")
  let maxQty ← mandatory string (found.lookup "max_qty")
  let maxNotional ← optional string (found.lookup "max_notional")
  pure { symbol, maxQty, maxNotional }

def HlOrderCap.names : List String := ["asset", "max_size", "max_notional"]

/-- The deserializer of `HlOrderCap`. -/
def HlOrderCap.read : Reader HlOrderCap := fun v => do
  let found ← record names true v
  let asset ← mandatory u64 (found.lookup "asset")
  let maxSize ← mandatory string (found.lookup "max_size")
  let maxNotional ← optional string (found.lookup "max_notional")
  pure { asset, maxSize, maxNotional }

def Policy.names : List String :=
  ["allowed_actions", "allowed_methods", "allowed_path_prefixes", "denied_path_prefixes",
    "max_requests_per_minute", "label", "allowed_asterdex_endpoints", "x402", "permit2",
    "order_caps", "allowed_vaults", "hl_order_caps", "signer_pubkey", "policy_signature",
    "policy_authority_sig", "intent_pubkey"]

/-- The deserializer of `Policy`, which has no `deny_unknown_fields`. -/
def Policy.read : Reader Policy := fun v => do
  let found ← record names false v
  let allowedActions ← optional (list string) (found.lookup "allowed_actions")
  let allowedMethods ← optional (list string) (found.lookup "allowed_methods")
  let allowedPathPrefixes ← optional (list string) (found.lookup "allowed_path_prefixes")
  let deniedPathPrefixes ← optional (list string) (found.lookup "denied_path_prefixes")
  let maxRequestsPerMinute ← optional u32 (found.lookup "max_requests_per_minute")
  let label ← optional string (found.lookup "label")
  let allowedAsterdexEndpoints ← optional (list string) (found.lookup "allowed_asterdex_endpoints")
  let x402 ← optional X402Policy.read (found.lookup "x402")
  let permit2 ← optional Permit2Policy.read (found.lookup "permit2")
  let orderCaps ← optional (list OrderAssetCap.read) (found.lookup "order_caps")
  let allowedVaults ← optional (list string) (found.lookup "allowed_vaults")
  let hlOrderCaps ← optional (list HlOrderCap.read) (found.lookup "hl_order_caps")
  let signerPubkey ← optional string (found.lookup "signer_pubkey")
  let policySignature ← optional string (found.lookup "policy_signature")
  let policyAuthoritySig ← optional string (found.lookup "policy_authority_sig")
  let intentPubkey ← optional string (found.lookup "intent_pubkey")
  pure
    { allowedActions, allowedMethods, allowedPathPrefixes, deniedPathPrefixes,
      maxRequestsPerMinute, label, allowedAsterdexEndpoints, x402, permit2, orderCaps,
      allowedVaults, hlOrderCaps, signerPubkey, policySignature, policyAuthoritySig,
      intentPubkey }

/-! ### How policies are written -/

def presentMembers (fields : List (String × Option Json)) : List (String × Json) :=
  fields.flatMap fun field => Policy.member field.1 field.2

theorem fst_mem_of_mem_presentMembers {fields : List (String × Option Json)} {m : String × Json}
    (h : m ∈ presentMembers fields) : m.1 ∈ fields.map Prod.fst := by
  obtain ⟨field, hfield, hm⟩ := List.mem_flatMap.mp h
  have hname : m.1 = field.1 := by
    cases hvalue : field.2 <;> simp [Policy.member, hvalue] at hm
    rw [hm]
  rw [hname]
  exact List.mem_map_of_mem hfield

def X402Policy.fields (c : X402Policy) : List (String × Option Json) :=
  [("chain_id", c.chainId.map Policy.unsigned), ("token_address", c.tokenAddress.map .string),
    ("max_value", c.maxValue.map .string),
    ("allowed_recipients", c.allowedRecipients.map Policy.strings)]

theorem X402Policy.toJson_eq (c : X402Policy) : c.toJson = .object (presentMembers c.fields) := by
  simp [toJson, presentMembers, fields]

def Permit2Policy.fields (c : Permit2Policy) : List (String × Option Json) :=
  [("chain_id", c.chainId.map Policy.unsigned),
    ("verifying_contract", c.verifyingContract.map .string),
    ("allowed_tokens", c.allowedTokens.map Policy.strings),
    ("allowed_spenders", c.allowedSpenders.map Policy.strings),
    ("max_amount", c.maxAmount.map .string),
    ("max_expiration", c.maxExpiration.map Policy.unsigned)]

theorem Permit2Policy.toJson_eq (c : Permit2Policy) :
    c.toJson = .object (presentMembers c.fields) := by
  simp [toJson, presentMembers, fields]

def OrderAssetCap.fields (c : OrderAssetCap) : List (String × Option Json) :=
  [("symbol", (some c.symbol).map .string), ("max_qty", (some c.maxQty).map .string),
    ("max_notional", c.maxNotional.map .string)]

theorem OrderAssetCap.toJson_eq (c : OrderAssetCap) :
    c.toJson = .object (presentMembers c.fields) := by
  simp [toJson, presentMembers, fields, Policy.member]

def HlOrderCap.fields (c : HlOrderCap) : List (String × Option Json) :=
  [("asset", (some c.asset).map Policy.unsigned), ("max_size", (some c.maxSize).map .string),
    ("max_notional", c.maxNotional.map .string)]

theorem HlOrderCap.toJson_eq (c : HlOrderCap) : c.toJson = .object (presentMembers c.fields) := by
  simp [toJson, presentMembers, fields, Policy.member]

def Policy.fields (p : Policy) : List (String × Option Json) :=
  [("allowed_actions", p.allowedActions.map strings),
    ("allowed_methods", p.allowedMethods.map strings),
    ("allowed_path_prefixes", p.allowedPathPrefixes.map strings),
    ("denied_path_prefixes", p.deniedPathPrefixes.map strings),
    ("max_requests_per_minute", (p.maxRequestsPerMinute.map UInt32.toUInt64).map unsigned),
    ("label", p.label.map .string),
    ("allowed_asterdex_endpoints", p.allowedAsterdexEndpoints.map strings),
    ("x402", p.x402.map X402Policy.toJson), ("permit2", p.permit2.map Permit2Policy.toJson),
    ("order_caps", p.orderCaps.map fun caps => .array (caps.map OrderAssetCap.toJson)),
    ("allowed_vaults", p.allowedVaults.map strings),
    ("hl_order_caps", p.hlOrderCaps.map fun caps => .array (caps.map HlOrderCap.toJson)),
    ("signer_pubkey", p.signerPubkey.map .string),
    ("policy_signature", p.policySignature.map .string),
    ("policy_authority_sig", p.policyAuthoritySig.map .string),
    ("intent_pubkey", p.intentPubkey.map .string)]

theorem Policy.toJson_eq (p : Policy) : p.toJson = .object (presentMembers p.fields) := by
  simp [toJson, presentMembers, fields, Function.comp_def]

/-! ### What is written is read back -/

section

variable {fields : List (String × Option Json)}

theorem mem_presentMembers {name : String} {v : Json} :
    (name, v) ∈ presentMembers fields ↔ (name, some v) ∈ fields := by
  simp only [presentMembers, List.mem_flatMap, Policy.member, Option.mem_toList,
    Option.map_eq_some_iff, Prod.mk.injEq]
  constructor
  · rintro ⟨⟨other, value⟩, hmem, w, hvalue, rfl, rfl⟩
    exact hvalue ▸ hmem
  · intro hmem
    exact ⟨(name, some v), hmem, v, rfl, rfl, rfl⟩

theorem nodup_presentMembers (hnodup : (fields.map Prod.fst).Nodup) :
    ((presentMembers fields).map Prod.fst).Nodup := by
  refine hnodup.sublist ?_
  induction fields with
  | nil => exact List.Sublist.refl _
  | cons field fields ih =>
    rw [List.map_cons, List.nodup_cons] at hnodup
    obtain ⟨name, value⟩ := field
    cases value with
    | none => exact (ih hnodup.2).cons _
    | some v => exact (ih hnodup.2).cons_cons _

theorem lookup_presentMembers (hnodup : (fields.map Prod.fst).Nodup) (name : String) :
    (presentMembers fields).lookup name = (fields.lookup name).join := by
  induction fields with
  | nil => rfl
  | cons field fields ih =>
    obtain ⟨other, value⟩ := field
    rw [List.map_cons, List.nodup_cons] at hnodup
    have hfresh : (presentMembers fields).lookup other = none := by
      refine List.lookup_eq_none_iff.mpr fun m hm => bne_iff_ne.mpr fun heq => hnodup.1 ?_
      rw [heq]
      exact fst_mem_of_mem_presentMembers hm
    rw [presentMembers, List.flatMap_cons, ← presentMembers, List.lookup_append, List.lookup_cons]
    by_cases hname : name = other
    · subst hname
      cases value <;> simp [Policy.member, hfresh]
    · have hbeq : (name == other) = false := beq_false_of_ne hname
      cases value <;> simp [Policy.member, List.lookup_cons, hbeq, ih hnodup.2]

theorem record_presentMembers {names : List String} (hnames : fields.map Prod.fst = names)
    (hnodup : names.Nodup) (denyUnknown : Bool) :
    record names denyUnknown (.object (presentMembers fields)) = some (presentMembers fields) := by
  refine record_object (nodup_presentMembers (hnames ▸ hnodup)) fun m hm => ?_
  rw [← hnames]
  exact fst_mem_of_mem_presentMembers hm

variable {α β : Type} {read : Reader α} {name : String} {next : Option α → Option β} {b : β}

theorem bind_optional {field : Option Json} {a : Option α} (hnodup : (fields.map Prod.fst).Nodup)
    (hfield : fields.lookup name = some field) (hread : optional read field = some a)
    (hnext : next a = some b) :
    (optional read ((presentMembers fields).lookup name)).bind next = some b := by
  rw [lookup_presentMembers hnodup, hfield, Option.join_some, hread, Option.bind_some, hnext]

theorem bind_mandatory {a : α} {v : Json} {next : α → Option β}
    (hnodup : (fields.map Prod.fst).Nodup) (hfield : fields.lookup name = some (some v))
    (hread : read v = some a) (hnext : next a = some b) :
    (mandatory read ((presentMembers fields).lookup name)).bind next = some b := by
  rw [lookup_presentMembers hnodup, hfield, mandatory, Option.join_some, Option.bind_some, hread,
    Option.bind_some, hnext]

end

theorem u64_unsigned (n : UInt64) : u64 (Policy.unsigned n) = some n := rfl

theorem u32_unsigned (n : UInt32) : u32 (Policy.unsigned n.toUInt64) = some n := u32_number n

theorem string_string (s : String) : string (.string s) = some s := rfl

theorem list_strings (items : List String) : list string (Policy.strings items) = some items :=
  list_map string_string items

theorem optional_unsigned (n : Option UInt64) : optional u64 (n.map Policy.unsigned) = some n :=
  optional_map u64_unsigned (fun _ h => Json.noConfusion h) n

theorem optional_string (s : Option String) : optional string (s.map .string) = some s :=
  optional_map string_string (fun _ h => Json.noConfusion h) s

theorem optional_strings (items : Option (List String)) :
    optional (list string) (items.map Policy.strings) = some items :=
  optional_map list_strings (fun _ h => Json.noConfusion h) items

theorem X402Policy.read_toJson (c : X402Policy) : read c.toJson = some c := by
  have hnodup : (c.fields.map Prod.fst).Nodup := show names.Nodup by decide
  rw [toJson_eq, read, record_presentMembers (show _ = names from rfl) hnodup]
  exact bind_optional hnodup rfl (optional_unsigned _) <|
    bind_optional hnodup rfl (optional_string _) <|
    bind_optional hnodup rfl (optional_string _) <|
    bind_optional hnodup rfl (optional_strings _) rfl

theorem Permit2Policy.read_toJson (c : Permit2Policy) : read c.toJson = some c := by
  have hnodup : (c.fields.map Prod.fst).Nodup := show names.Nodup by decide
  rw [toJson_eq, read, record_presentMembers (show _ = names from rfl) hnodup]
  exact bind_optional hnodup rfl (optional_unsigned _) <|
    bind_optional hnodup rfl (optional_string _) <|
    bind_optional hnodup rfl (optional_strings _) <|
    bind_optional hnodup rfl (optional_strings _) <|
    bind_optional hnodup rfl (optional_string _) <|
    bind_optional hnodup rfl (optional_unsigned _) rfl

theorem OrderAssetCap.read_toJson (c : OrderAssetCap) : read c.toJson = some c := by
  have hnodup : (c.fields.map Prod.fst).Nodup := show names.Nodup by decide
  rw [toJson_eq, read, record_presentMembers (show _ = names from rfl) hnodup]
  simp only [Option.bind_eq_bind, Option.bind_some]
  refine bind_mandatory hnodup rfl (string_string c.symbol) ?_
  refine bind_mandatory hnodup rfl (string_string c.maxQty) ?_
  exact bind_optional hnodup rfl (optional_string _) rfl

theorem HlOrderCap.read_toJson (c : HlOrderCap) : read c.toJson = some c := by
  have hnodup : (c.fields.map Prod.fst).Nodup := show names.Nodup by decide
  rw [toJson_eq, read, record_presentMembers (show _ = names from rfl) hnodup]
  simp only [Option.bind_eq_bind, Option.bind_some]
  refine bind_mandatory hnodup rfl (u64_unsigned c.asset) ?_
  refine bind_mandatory hnodup rfl (string_string c.maxSize) ?_
  exact bind_optional hnodup rfl (optional_string _) rfl

theorem optional_x402 (c : Option X402Policy) :
    optional X402Policy.read (c.map X402Policy.toJson) = some c :=
  optional_map X402Policy.read_toJson (fun _ h => Json.noConfusion h) c

theorem optional_permit2 (c : Option Permit2Policy) :
    optional Permit2Policy.read (c.map Permit2Policy.toJson) = some c :=
  optional_map Permit2Policy.read_toJson (fun _ h => Json.noConfusion h) c

theorem optional_array {α : Type} {read : Reader α} {write : α → Json}
    (hread : ∀ a, read (write a) = some a) (items : Option (List α)) :
    optional (list read) (items.map fun items => .array (items.map write)) = some items :=
  optional_map (list_map hread) (fun _ h => Json.noConfusion h) items

theorem Policy.read_toJson (p : Policy) : read p.toJson = some p := by
  have hnodup : (p.fields.map Prod.fst).Nodup := show names.Nodup by decide
  have hminute : optional u32 ((p.maxRequestsPerMinute.map UInt32.toUInt64).map unsigned) =
      some p.maxRequestsPerMinute := by
    rw [Option.map_map]
    exact optional_map u32_unsigned (fun _ h => Json.noConfusion h) _
  rw [toJson_eq, read, record_presentMembers (show _ = names from rfl) hnodup]
  exact bind_optional hnodup rfl (optional_strings _) <|
    bind_optional hnodup rfl (optional_strings _) <|
    bind_optional hnodup rfl (optional_strings _) <|
    bind_optional hnodup rfl (optional_strings _) <|
    bind_optional hnodup rfl hminute <|
    bind_optional hnodup rfl (optional_string _) <|
    bind_optional hnodup rfl (optional_strings _) <|
    bind_optional hnodup rfl (optional_x402 _) <|
    bind_optional hnodup rfl (optional_permit2 _) <|
    bind_optional hnodup rfl (optional_array OrderAssetCap.read_toJson _) <|
    bind_optional hnodup rfl (optional_strings _) <|
    bind_optional hnodup rfl (optional_array HlOrderCap.read_toJson _) <|
    bind_optional hnodup rfl (optional_string _) <|
    bind_optional hnodup rfl (optional_string _) <|
    bind_optional hnodup rfl (optional_string _) <|
    bind_optional hnodup rfl (optional_string _) rfl

end Signer
