import Signer.LimitClauses
import Signer.Uint256

/-!
# Payment and allowance caps on words

The amounts of payments and allowances are words of 32 bytes, compared byte by byte. On words the
byte order is the order of the numbers.
-/

namespace Signer

open Text Digits

/-! ### Words and numbers -/

def compareWords (a b : Bytes) : Ordering := compare (a.map UInt8.toNat) (b.map UInt8.toNat)

theorem value_beBytes {width n : ℕ} (h : n < 256 ^ width) :
    value 256 ((beBytes width n).map UInt8.toNat) = n := by
  induction width generalizing n with
  | zero =>
    rw [Nat.pow_zero] at h
    rw [beBytes, List.map_nil, value_nil]
    omega
  | succ width ih =>
    have hdiv : n / 256 < 256 ^ width := by
      rw [Nat.pow_succ] at h
      omega
    rw [beBytes, List.map_append, value_append, ih hdiv]
    simp [value]
    omega

theorem compareWords_beBytes {width m n : ℕ} (hm : m < 256 ^ width) (hn : n < 256 ^ width) :
    compareWords (beBytes width m) (beBytes width n) = compare m n := by
  have hdigits : ∀ {b : Bytes}, ∀ d ∈ b.map UInt8.toNat, d < 256 := by
    intro b d hd
    obtain ⟨byte, -, rfl⟩ := List.mem_map.mp hd
    exact byte.toNat_lt
  rw [compareWords, compare_of_length_eq (by norm_num) hdigits hdigits (by simp),
    value_beBytes hm, value_beBytes hn]

theorem take_beBytes (width low n : ℕ) :
    (beBytes (width + low) n).take width = beBytes width (n / 256 ^ low) := by
  induction low generalizing n with
  | zero => simp [List.take_of_length_le]
  | succ low ih =>
    rw [← Nat.add_assoc, beBytes, List.take_append_of_le_length (by simp), ih,
      Nat.div_div_eq_div_mul, Nat.pow_succ']

theorem beBytes_zero (width : ℕ) : beBytes width 0 = List.replicate width 0 := by
  induction width with
  | zero => rfl
  | succ width ih => rw [beBytes, Nat.zero_div, ih, List.replicate_succ']; rfl

variable {n : ℕ}

theorem take_beBytes_all_zero (width low : ℕ) (h : n < 256 ^ (width + low)) :
    (((beBytes (width + low) n).take width).all fun b => b = 0) = decide (n < 256 ^ low) := by
  rw [take_beBytes]
  by_cases hlow : n < 256 ^ low
  · simp [Nat.div_eq_of_lt hlow, beBytes_zero, hlow]
  · have hdiv : n / 256 ^ low < 256 ^ width := by
      rw [Nat.pow_add, Nat.mul_comm] at h
      exact Nat.div_lt_of_lt_mul h
    have hne : beBytes width (n / 256 ^ low) ≠ List.replicate width 0 := by
      rw [← beBytes_zero]
      intro heq
      have hzero := beBytes_injective hdiv (by positivity) heq
      have hpos : 0 < n / 256 ^ low := Nat.div_pos (Nat.not_lt.mp hlow) (by positivity)
      omega
    rw [decide_eq_false hlow, Bool.eq_false_iff, Ne, List.all_eq_true]
    intro hall
    refine hne (List.eq_replicate_iff.mpr ⟨by simp, fun b hb => ?_⟩)
    simpa using hall b hb

/-! ### The gates of the source -/

variable {amount : ℕ} {s : String}

namespace PaymentWords

/-- One entry in the scan of `enforce_x402_cap`: whether the recipient was found, and whether an
entry was malformed. The scan goes on after either. -/
def scanRecipient (recipient : Bytes) (flags : Bool × Bool) (entry : String) : Bool × Bool :=
  match parseEvmAddress entry with
  | some allowed => (flags.1 || allowed = recipient, flags.2)
  | none => (flags.1, true)

def enforceX402Cap (policy : Option Policy) (reqChainId : UInt64)
    (tokenAddress recipient value : Bytes) : Except ErrCode Unit := do
  let p ← required policy
  let cap ← required p.x402
  let chainId ← required cap.chainId
  if chainId ≠ reqChainId then throw .policyDenied
  let token ← required cap.tokenAddress
  if parseEvmAddress token ≠ some tokenAddress then throw .policyDenied
  let max ← required cap.maxValue
  if !(parseU256BeDecimal max).any (fun word => compareWords value word ≠ .gt) then
    throw .policyDenied
  let recipients ← required cap.allowedRecipients
  let flags := recipients.foldl (scanRecipient recipient) (false, false)
  if flags.2 then throw .policyDenied
  if !flags.1 then throw .policyDenied

def permit2RequestShape (p2 : Permit2Request) : Option Bytes := do
  guard (¬(p2.expiration.toNat > 2 ^ 48 - 1 ∨ p2.nonce.toNat > 2 ^ 48 - 1))
  let amount ← parseU256BeDecimal p2.amount
  guard ((amount.take 12).all fun b => b = 0)
  let _ ← parseU256BeDecimal p2.sigDeadline
  pure amount

/-- The scan of `permit2_allow_list`, which stops at an entry that is no address. -/
def scanAllowed (needle : Bytes) : List String → Bool → Except ErrCode Bool
  | [], found => .ok found
  | item :: items, found =>
    match parseEvmAddress item with
    | some a => scanAllowed needle items (found || a = needle)
    | none => .error .policyRequired

def permit2AllowList (list : Option (List String)) (needle : Bytes) : Except ErrCode Unit := do
  let items ← required list
  if items.isEmpty then throw .policyRequired
  let found ← scanAllowed needle items false
  if !found then throw .policyDenied

/-- An allowance that wallets use for no limit at all, the largest `uint160`. -/
def isInfinite (amount : Bytes) : Bool :=
  (amount.take 12).all (fun b => b = 0) ∧ (amount.drop 12).all (fun b => b = 0xff)

def enforcePermit2Allowance (policy : Option Policy) (reqChainId : UInt64)
    (verifyingContract token spender amount : Bytes) (expiration : UInt64) :
    Except ErrCode Unit := do
  let p ← required policy
  let c ← required p.permit2
  if isInfinite amount then throw .policyDenied
  let chainId ← required c.chainId
  if chainId ≠ reqChainId then throw .policyDenied
  let contract ← required c.verifyingContract
  let contract ← required (parseEvmAddress contract)
  if contract ≠ verifyingContract then throw .policyDenied
  permit2AllowList c.allowedTokens token
  permit2AllowList c.allowedSpenders spender
  let max ← required c.maxAmount
  let max ← required (parseU256BeDecimal max)
  if compareWords amount max = .gt then throw .policyDenied
  let maxExpiration ← required c.maxExpiration
  if expiration > maxExpiration then throw .policyDenied

/-! ### Words decide what numbers decide -/

theorem pow_words : 256 ^ 32 = 2 ^ 256 := by norm_num

theorem foldl_scanRecipient (recipient : Bytes) (entries : List String) (flags : Bool × Bool) :
    entries.foldl (scanRecipient recipient) flags =
      (flags.1 || entries.any fun entry => parseEvmAddress entry = some recipient,
        flags.2 || entries.any fun entry => (parseEvmAddress entry).isNone) := by
  induction entries generalizing flags with
  | nil => simp
  | cons entry entries ih =>
    rw [List.foldl_cons, ih]
    cases hentry : parseEvmAddress entry <;> simp [scanRecipient, hentry, Bool.or_assoc]

theorem parseU256Decimal_lt (h : parseU256Decimal s = some n) :
    n < 2 ^ 256 := by
  rw [parseU256Decimal_eq] at h
  exact parseDigits_lt (by norm_num) h

theorem any_compareWords {max : String} {value : ℕ} (hvalue : value < 2 ^ 256) :
    ((parseU256BeDecimal max).any fun word =>
      compareWords (beBytes 32 value) word ≠ .gt) =
      (parseU256Decimal max).any fun m => value ≤ m := by
  rw [parseU256BeDecimal_eq]
  cases hmax : parseU256Decimal max with
  | none => rfl
  | some m =>
    have hm := parseU256Decimal_lt hmax
    rw [Option.map_some, Option.any_some, Option.any_some,
      compareWords_beBytes (by rwa [pow_words]) (by rwa [pow_words])]
    simp [Nat.compare_ne_gt]

theorem throw_bind {α β : Type} (code : ErrCode) (f : α → Except ErrCode β) :
    (throw code >>= f) = throw code := rfl

theorem not_addressListed (entries : List String) (addr : Bytes) :
    (!addressListed entries addr) = true ↔
      (entries.any fun entry => (parseEvmAddress entry).isNone) = true ∨
        (!entries.any fun entry => parseEvmAddress entry = some addr) = true := by
  have hall : (entries.all fun entry => (parseEvmAddress entry).isSome) =
      !entries.any fun entry => (parseEvmAddress entry).isNone := by
    rw [List.not_any_eq_all_not]
    simp
  simp only [addressListed, hall, Bool.decide_and, Bool.not_and, Bool.or_eq_true]
  simp

theorem ite_throw_or {c d : Prop} [Decidable c] [Decidable d] (code : ErrCode) :
    (if c ∨ d then throw code else pure () : Except ErrCode Unit) =
      if c then throw code else if d then throw code else pure () := by
  by_cases hc : c <;> simp [hc]

theorem enforceX402Cap_beBytes (policy : Option Policy) (reqChainId : UInt64)
    (tokenAddress recipient : Bytes) {value : ℕ} (hvalue : value < 2 ^ 256) :
    enforceX402Cap policy reqChainId tokenAddress recipient (beBytes 32 value) =
      Signer.enforceX402Cap policy reqChainId tokenAddress recipient value := by
  simp only [enforceX402Cap, Signer.enforceX402Cap, throw_bind, any_compareWords hvalue,
    foldl_scanRecipient, Bool.false_or, not_addressListed, ite_throw_or]

theorem take_word_all_zero (h : n < 2 ^ 256) :
    (((beBytes 32 n).take 12).all fun b => b = 0) = decide (n < 2 ^ 160) := by
  have hsplit : 12 + 20 = 32 := rfl
  have hpow : 256 ^ 20 = 2 ^ 160 := by norm_num
  have hzero := take_beBytes_all_zero 12 20 (n := n) (by rwa [hsplit, pow_words])
  rwa [hsplit, hpow] at hzero

theorem permit2RequestShape_eq (p2 : Permit2Request) :
    permit2RequestShape p2 = (Signer.permit2RequestShape p2).map (beBytes 32) := by
  have hwidths : (¬(p2.expiration.toNat > 2 ^ 48 - 1 ∨ p2.nonce.toNat > 2 ^ 48 - 1)) ↔
      p2.expiration.toNat ≤ 2 ^ 48 - 1 ∧ p2.nonce.toNat ≤ 2 ^ 48 - 1 := by
    rw [not_or, not_lt, not_lt]
  rw [permit2RequestShape, Signer.permit2RequestShape, parseU256BeDecimal_eq,
    parseU256BeDecimal_eq, guard, guard, if_congr hwidths rfl rfl]
  split
  · cases hamount : parseU256Decimal p2.amount with
    | none => rfl
    | some amount =>
      have hfits : ((beBytes 32 amount).take 12).all (fun b => b = 0) = true ↔
          amount < 2 ^ 160 := by
        rw [take_word_all_zero (parseU256Decimal_lt hamount), decide_eq_true_eq]
      simp only [Option.map_some, Option.bind_eq_bind, Option.bind_some, guard,
        if_congr hfits rfl rfl]
      split
      · cases parseU256Decimal p2.sigDeadline <;> rfl
      · rfl
  · rfl

theorem scanAllowed_eq (needle : Bytes) (items : List String) (found : Bool) :
    scanAllowed needle items found =
      if items.any fun item => (parseEvmAddress item).isNone then .error .policyRequired
      else .ok (found || items.any fun item => parseEvmAddress item = some needle) := by
  induction items generalizing found with
  | nil => simp [scanAllowed]
  | cons item items ih =>
    cases hitem : parseEvmAddress item with
    | none => simp [scanAllowed, hitem]
    | some a => simp [scanAllowed, hitem, ih, Bool.or_assoc]

theorem permit2AllowList_eq (list : Option (List String)) (needle : Bytes) :
    permit2AllowList list needle = Signer.permit2AllowList list needle := by
  cases list with
  | none => rfl
  | some items =>
    simp only [permit2AllowList, Signer.permit2AllowList, scanAllowed_eq, Bool.false_or, required,
      bind, Except.bind]
    by_cases hempty : items.isEmpty
    · rw [if_pos hempty, if_pos hempty]
      rfl
    · rw [if_neg hempty, if_neg hempty]
      by_cases hmalformed : items.any fun item => (parseEvmAddress item).isNone
      · rw [if_pos hmalformed, if_pos hmalformed]
      · rw [if_neg hmalformed, if_neg hmalformed]
        cases items.any fun item => decide (parseEvmAddress item = some needle) <;> rfl

theorem isInfinite_beBytes (h : amount < 2 ^ 256) :
    isInfinite (beBytes 32 amount) = decide (amount = 2 ^ 160 - 1) := by
  have hmax : beBytes 32 (2 ^ 160 - 1) = List.replicate 12 0 ++ List.replicate 20 0xff := by
    decide
  by_cases heq : amount = 2 ^ 160 - 1
  · rw [heq, decide_eq_true rfl, hmax]
    decide
  · rw [decide_eq_false heq, Bool.eq_false_iff]
    intro hinfinite
    simp only [isInfinite, decide_eq_true_eq, List.all_eq_true] at hinfinite
    obtain ⟨hhigh, hlow⟩ := hinfinite
    have hbytes : beBytes 32 amount = beBytes 32 (2 ^ 160 - 1) := by
      rw [hmax, ← List.take_append_drop 12 (beBytes 32 amount)]
      exact congrArg₂ (· ++ ·) (List.eq_replicate_iff.mpr ⟨by simp, hhigh⟩)
        (List.eq_replicate_iff.mpr ⟨by simp, hlow⟩)
    exact heq (beBytes_injective (by rwa [pow_words]) (by norm_num) hbytes)

theorem required_words {max : String} (h : amount < 2 ^ 256)
    (rest : Except ErrCode Unit) :
    (required (parseU256BeDecimal max) >>= fun word =>
      if compareWords (beBytes 32 amount) word = .gt then throw .policyDenied else rest) =
      required (parseU256Decimal max) >>= fun m =>
        if m < amount then throw .policyDenied else rest := by
  rw [parseU256BeDecimal_eq]
  cases hmax : parseU256Decimal max with
  | none => rfl
  | some m =>
    have hm := parseU256Decimal_lt hmax
    have hcompare : compareWords (beBytes 32 amount) (beBytes 32 m) = compare amount m :=
      compareWords_beBytes (by rwa [pow_words]) (by rwa [pow_words])
    simp only [Option.map_some, required, bind, Except.bind, hcompare, Nat.compare_eq_gt]

theorem enforcePermit2Allowance_beBytes (policy : Option Policy) (permit : PermitSingle)
    (h : permit.amount < 2 ^ 256) :
    enforcePermit2Allowance policy permit.chainId permit.verifyingContract permit.token
      permit.spender (beBytes 32 permit.amount) permit.expiration =
      Signer.enforcePermit2Allowance policy permit := by
  simp only [enforcePermit2Allowance, Signer.enforcePermit2Allowance, throw_bind,
    permit2AllowList_eq, isInfinite_beBytes h, decide_eq_true_eq, required_words h, gt_iff_lt]

end PaymentWords

/-! ### What the clauses state -/

/-- Digits, after trimming. -/
def IsNumeral (text : String) : Prop :=
  (trim text).toList ≠ [] ∧ ∀ c ∈ (trim text).toList, isAsciiDigit c = true

def numeralValue (text : String) : ℕ := value 10 ((trim text).toList.map digitValue)

def Denotes (text : String) (n : ℕ) : Prop :=
  IsNumeral text ∧ n = numeralValue text ∧ n < 2 ^ 256

def OnList (list : Option (List String)) (addr : Bytes) : Prop :=
  ∃ items, list = some items ∧ (∀ item ∈ items, (parseEvmAddress item).isSome = true) ∧
    ∃ item ∈ items, parseEvmAddress item = some addr

/-- The clause allows the payment, in numbers and addresses. -/
structure X402Policy.Allows (cap : X402Policy) (chainId : UInt64) (token recipient : Bytes)
    (value : ℕ) : Prop where
  chain : cap.chainId = some chainId
  token : ∃ text, cap.tokenAddress = some text ∧ parseEvmAddress text = some token
  value : ∃ text max, cap.maxValue = some text ∧ Denotes text max ∧ value ≤ max
  recipient : OnList cap.allowedRecipients recipient

/-- The clause allows the allowance, in numbers and addresses. -/
structure Permit2Policy.Allows (c : Permit2Policy) (permit : PermitSingle) : Prop where
  chain : c.chainId = some permit.chainId
  contract : ∃ text, c.verifyingContract = some text ∧
    parseEvmAddress text = some permit.verifyingContract
  token : OnList c.allowedTokens permit.token
  spender : OnList c.allowedSpenders permit.spender
  finite : permit.amount ≠ 2 ^ 160 - 1
  amount : ∃ text max, c.maxAmount = some text ∧ Denotes text max ∧ permit.amount ≤ max
  expiration : ∃ max, c.maxExpiration = some max ∧ permit.expiration ≤ max

theorem parseU256Decimal_eq_some_iff :
    parseU256Decimal s = some n ↔ Denotes s n := by
  rw [parseU256Decimal_eq, parseDigits_eq_some_iff (by norm_num), Denotes, IsNumeral,
    numeralValue, and_congr_right_iff]
  rintro -
  constructor
  · rintro ⟨hlt, hn⟩
    rw [← hn] at hlt
    exact ⟨hn, hlt⟩
  · rintro ⟨hn, hlt⟩
    rw [← hn]
    exact ⟨hlt, rfl⟩

theorem parseU256BeDecimal_eq_some_iff {word : Bytes} :
    parseU256BeDecimal s = some word ↔
      IsNumeral s ∧ numeralValue s < 2 ^ 256 ∧ word = beBytes 32 (numeralValue s) := by
  simp only [parseU256BeDecimal_eq, Option.map_eq_some_iff, parseU256Decimal_eq_some_iff, Denotes]
  constructor
  · rintro ⟨n, ⟨hnumeral, hn, hlt⟩, hword⟩
    rw [hn] at hlt hword
    exact ⟨hnumeral, hlt, hword.symm⟩
  · rintro ⟨hnumeral, hlt, hword⟩
    exact ⟨numeralValue s, ⟨hnumeral, rfl, hlt⟩, hword.symm⟩

theorem required_bind_eq_ok {α β : Type} {o : Option α} {f : α → Except ErrCode β} {b : β} :
    (required o >>= f) = .ok b ↔ ∃ a, o = some a ∧ f a = .ok b := by
  cases o <;> simp [required, bind, Except.bind]

theorem ite_throw_eq_ok {c : Prop} [Decidable c] {code : ErrCode} {rest : Except ErrCode Unit} :
    (if c then throw code else rest) = .ok () ↔ ¬c ∧ rest = .ok () := by
  by_cases hc : c <;> simp [hc, throw, throwThe, MonadExceptOf.throw]

theorem addressListed_iff {list : List String} {addr : Bytes} :
    addressListed list addr = true ↔ OnList (some list) addr := by
  simp [addressListed, OnList]

variable {policy : Option Policy}

theorem enforceX402Cap_eq_ok_iff {chainId : UInt64}
    {token recipient : Bytes} {value : ℕ} :
    enforceX402Cap policy chainId token recipient value = .ok () ↔
      ∃ p cap, policy = some p ∧ p.x402 = some cap ∧ cap.Allows chainId token recipient value := by
  simp only [enforceX402Cap, PaymentWords.throw_bind, required_bind_eq_ok, ite_throw_eq_ok,
    not_not, Bool.not_eq_true', Bool.not_eq_false, addressListed_iff, Option.any_eq_true,
    decide_eq_true_eq]
  constructor
  · rintro ⟨p, hp, cap, hcap, chain, hchain, rfl, text, htext, htoken, max, hmax,
      ⟨m, hm, hle⟩, list, hlist, hlisted, -⟩
    refine ⟨p, cap, hp, hcap, hchain, ⟨text, htext, htoken⟩,
      ⟨max, m, hmax, parseU256Decimal_eq_some_iff.mp hm, hle⟩, ?_⟩
    rwa [hlist]
  · rintro ⟨p, cap, hp, hcap, hchain, ⟨text, htext, htoken⟩, ⟨max, m, hmax, hm, hle⟩, hlisted⟩
    obtain ⟨list, hlist, hentries⟩ := hlisted
    exact ⟨p, hp, cap, hcap, chainId, hchain, rfl, text, htext, htoken, max, hmax,
      ⟨m, parseU256Decimal_eq_some_iff.mpr hm, hle⟩, list, hlist, ⟨list, rfl, hentries⟩, rfl⟩

theorem permit2AllowList_eq_ok_iff {list : Option (List String)} {needle : Bytes} :
    permit2AllowList list needle = .ok () ↔ OnList list needle := by
  cases list with
  | none => simp [permit2AllowList, OnList]
  | some items =>
    have hlisted := PaymentWords.not_addressListed items needle
    rw [← addressListed_iff, permit2AllowList]
    by_cases hempty : items.isEmpty
    · obtain rfl := List.isEmpty_iff.mp hempty
      simp [addressListed]
    · rw [if_neg hempty]
      by_cases hmalformed : items.any fun item => (parseEvmAddress item).isNone
      · simp only [if_pos hmalformed, reduceCtorEq, false_iff]
        simpa using hlisted.mpr (.inl hmalformed)
      · rw [if_neg hmalformed, or_iff_right hmalformed] at *
        cases hfound : items.any fun item => decide (parseEvmAddress item = some needle)
        · simpa [hfound] using hlisted
        · simpa [hfound] using hlisted

variable {permit : PermitSingle}

theorem enforcePermit2Allowance_eq_ok_iff :
    enforcePermit2Allowance policy permit = .ok () ↔
      ∃ p c, policy = some p ∧ p.permit2 = some c ∧ c.Allows permit := by
  have hlists : ∀ (list : Option (List String)) (needle : Bytes) (rest : Except ErrCode Unit),
      (permit2AllowList list needle >>= fun _ => rest) = .ok () ↔
        OnList list needle ∧ rest = .ok () := by
    intro list needle rest
    rw [← permit2AllowList_eq_ok_iff]
    cases permit2AllowList list needle <;> simp [bind, Except.bind]
  simp only [enforcePermit2Allowance, PaymentWords.throw_bind, required_bind_eq_ok,
    ite_throw_eq_ok, hlists, not_not, not_lt, UInt64.not_lt]
  constructor
  · rintro ⟨p, hp, c, hc, hfinite, chain, hchain, rfl, text, htext, contract, hcontract, rfl,
      htoken, hspender, max, hmax, m, hm, hle, maxExpiration, hmaxExpiration, hexpiration, -⟩
    exact ⟨p, c, hp, hc, hchain, ⟨text, htext, hcontract⟩, htoken, hspender, hfinite,
      ⟨max, m, hmax, parseU256Decimal_eq_some_iff.mp hm, hle⟩,
      ⟨maxExpiration, hmaxExpiration, hexpiration⟩⟩
  · rintro ⟨p, c, hp, hc, hchain, ⟨text, htext, hcontract⟩, htoken, hspender, hfinite,
      ⟨max, m, hmax, hm, hle⟩, ⟨maxExpiration, hmaxExpiration, hexpiration⟩⟩
    exact ⟨p, hp, c, hc, hfinite, permit.chainId, hchain, rfl, text, htext, _, hcontract, rfl,
      htoken, hspender, max, hmax, m, parseU256Decimal_eq_some_iff.mpr hm, hle, maxExpiration,
      hmaxExpiration, hexpiration, rfl⟩

/-! ### What the handlers sign -/

section

variable {env : Env} {amb : Ambient} {req : SignRequest} {identity : ResolvedIdentity}
  {s s' : Enclave} {resp : SignResponse} {t : List Event}

theorem transferOf_value {x : X402Request} {transfer : TransferAuthorization}
    (h : transferOf x = some transfer) :
    transfer.chainId = x.chainId ∧ parseU256Decimal x.value = some transfer.value := by
  simp only [transferOf, do_eq_some, pure_eq_some] at h
  obtain ⟨_, -, _, -, _, -, value, hvalue, _, -, rfl⟩ := h
  exact ⟨rfl, hvalue⟩

theorem permitOf_eq_some {p2 : Permit2Request}
    (h : permitOf p2 amount = some permit) :
    permit.amount = amount ∧ permit.expiration = p2.expiration ∧ permit.nonce = p2.nonce := by
  simp only [permitOf, do_eq_some, pure_eq_some] at h
  obtain ⟨_, -, _, -, _, -, _, -, rfl⟩ := h
  exact ⟨rfl, rfl, rfl⟩

theorem permit2RequestShape_eq_some {p2 : Permit2Request}
    (h : permit2RequestShape p2 = some amount) :
    parseU256Decimal p2.amount = some amount ∧ amount < 2 ^ 160 ∧
      p2.expiration.toNat < 2 ^ 48 ∧ p2.nonce.toNat < 2 ^ 48 := by
  simp only [permit2RequestShape, do_eq_some,
    Option.guard_eq_some', Option.pure_def, Option.some.injEq] at h
  obtain ⟨_, ⟨hexpiration, hnonce⟩, n, hamount, _, hfits, _, -, hn⟩ := h
  rw [hn] at hamount hfits
  exact ⟨hamount, hfits, by omega, by omega⟩

end

structure AllowanceWithin (policy : Option Policy) (p2 : Permit2Request) (permit : PermitSingle) :
    Prop where
  clause : ∃ p c, policy = some p ∧ p.permit2 = some c ∧ c.Allows permit
  request : permitOf p2 permit.amount = some permit
  amount : Denotes p2.amount permit.amount
  finite : permit.amount < 2 ^ 160 - 1
  expiration : permit.expiration.toNat < 2 ^ 48
  nonce : permit.nonce.toNat < 2 ^ 48

/-- Payment and allowance caps decide the relation of numbers they state. Amounts are read by a
parser that accepts the numerals of the numbers below `2 ^ 256` and gives their big-endian bytes.
The gate of a payment accepts exactly what the payment clause allows, and the handler asks this
gate. An allowance is signed only within its clause. -/
theorem payment_caps_exact :
    (∀ text word, parseU256BeDecimal text = some word ↔
      IsNumeral text ∧ numeralValue text < 2 ^ 256 ∧
        word = beBytes 32 (numeralValue text)) ∧
      (∀ env amb identity req x transfer word, req.x402 = some x → transferOf x = some transfer →
        parseU256BeDecimal x.value = some word →
        GatedBy env amb identity req
          (fun policy => PaymentWords.enforceX402Cap policy x.chainId transfer.tokenAddress
            transfer.recipient word) (handleSignX402Eip3009 env amb req identity) ∧
        ∀ policy, PaymentWords.enforceX402Cap policy x.chainId transfer.tokenAddress
            transfer.recipient word = .ok () ↔
          ∃ p cap, policy = some p ∧ p.x402 = some cap ∧
            cap.Allows x.chainId transfer.tokenAddress transfer.recipient
              (numeralValue x.value)) ∧
      ∀ env amb identity req s resp s' t,
        (handleSignPermit2PermitSingle env amb req identity).Returns s resp s' t →
        ∃ p2 word permit blob venue key, req.permit2 = some p2 ∧
          PaymentWords.permit2RequestShape p2 = some word ∧
          PaymentWords.enforcePermit2Allowance blob.policy permit.chainId
            permit.verifyingContract permit.token permit.spender word permit.expiration = .ok () ∧
          t = signTrace identity venue blob none (.permit2 key permit) ∧
          AllowanceWithin blob.policy p2 permit := by
  refine ⟨fun _ _ => parseU256BeDecimal_eq_some_iff, ?_, ?_⟩
  · intro env amb identity req x transfer word hx htransfer hword
    obtain ⟨hchain, hvalue⟩ := transferOf_value htransfer
    have hlt := PaymentWords.parseU256Decimal_lt hvalue
    have hnumeral : numeralValue x.value = transfer.value :=
      (parseU256Decimal_eq_some_iff.mp hvalue).2.1.symm
    obtain rfl : beBytes 32 transfer.value = word := by
      rw [parseU256BeDecimal_eq, hvalue] at hword
      exact Option.some.inj hword
    simp only [PaymentWords.enforceX402Cap_beBytes _ _ _ _ hlt, hnumeral, ← hchain]
    exact ⟨handleSignX402Eip3009_gated hx htransfer, fun _ => enforceX402Cap_eq_ok_iff⟩
  · intro env amb identity req s resp s' t hrun
    obtain ⟨p2, amount, permit, blob, venue, key, hp2, hamount, hpermit, -, hcap, ht⟩ :=
      handleSignPermit2PermitSingle_signs hrun
    obtain ⟨hparsed, hfits, hexpiration, hnonce⟩ := permit2RequestShape_eq_some hamount
    obtain ⟨rfl, hpermitExpiration, hpermitNonce⟩ := permitOf_eq_some hpermit
    have hclause := enforcePermit2Allowance_eq_ok_iff.mp hcap
    obtain ⟨p, c, -, -, hallows⟩ := id hclause
    have hfinite := hallows.finite
    have hlt := PaymentWords.parseU256Decimal_lt hparsed
    refine ⟨p2, beBytes 32 permit.amount, permit, blob, venue, key, hp2, ?_, ?_, ht,
      hclause, hpermit, parseU256Decimal_eq_some_iff.mp hparsed, by omega, ?_, ?_⟩
    · rw [PaymentWords.permit2RequestShape_eq, hamount]
      rfl
    · rw [PaymentWords.enforcePermit2Allowance_beBytes _ _ hlt]
      exact hcap
    · rwa [hpermitExpiration]
    · rwa [hpermitNonce]

namespace Sample

def allowanceBlob : Answers :=
  traderAnswers allowancePolicy ("\x7b" ++ allowanceMembers ++ "\x7d") "signer_address"

def allowanceRequest : SignRequest :=
  { request .signPermit2PermitSingle with
    permit2 := some
      { chainId := 1
        verifyingContract := "0x000000000022d473030f116ddee9f6b43ac78ba3"
        token := "0xa0b86991c6218b36c1d19d4a2e9eb0ce3606eb48"
        amount := "1000000"
        expiration := 1700003600
        nonce := 0
        spender := "0x3fc91a3afd70395cd496c647d5a6cc9d4b2b7fad"
        sigDeadline := "1700000600" } }

end Sample

open Sample in
/-- The allowance of the sample is signed, and within its clause. -/
theorem payment_caps_exact_allowance :
    ∃ resp s' t, (handleSignPermit2PermitSingle (env allowanceBlob) {} allowanceRequest
        (identity ["permit2"] .active)).Returns {} resp s' t ∧
      ∃ p2 permit key, allowanceRequest.permit2 = some p2 ∧ .signed (.permit2 key permit) ∈ t ∧
        AllowanceWithin (some allowancePolicy) p2 permit := by
  obtain ⟨resp, s', t, hrun, hpolicy⟩ : ∃ resp s' t,
      (handleSignPermit2PermitSingle (env allowanceBlob) {} allowanceRequest
        (identity ["permit2"] .active)).Returns {} resp s' t ∧
      acceptedPolicies t = [some allowancePolicy] :=
    Proc.exists_returns_of_run (by decide +kernel)
  obtain ⟨p2, _, permit, blob, _, key, hp2, -, -, rfl, hwithin⟩ :=
    payment_caps_exact.2.2 _ _ _ _ _ _ _ _ hrun
  have hblob : some allowancePolicy = blob.policy := by simpa [eq_comm] using hpolicy
  rw [← hblob] at hwithin
  exact ⟨resp, s', _, hrun, p2, permit, key, hp2, signed_mem_signTrace.mpr rfl, hwithin⟩

end Signer
