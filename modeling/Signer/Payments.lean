import Signer.HyperliquidCaps

/-!
# Payments and allowances

The clauses of a policy for EIP-3009 payments and Permit2 allowances. Both move funds,
so a missing clause or field refuses: absence is no permission here.
-/

namespace Signer

def required {α : Type} (o : Option α) : Except ErrCode α :=
  match o with
  | some a => .ok a
  | none => .error .policyRequired

def enforceX402Cap (policy : Option Policy) (reqChainId : UInt64) (tokenAddress recipient : Bytes)
    (value : Nat) : Except ErrCode Unit := do
  let p ← required policy
  let cap ← required p.x402
  let chainId ← required cap.chainId
  if chainId ≠ reqChainId then throw .policyDenied
  let token ← required cap.tokenAddress
  if parseEvmAddress token ≠ some tokenAddress then throw .policyDenied
  let max ← required cap.maxValue
  if !(parseU256Decimal max).any (fun m => value ≤ m) then throw .policyDenied
  let recipients ← required cap.allowedRecipients
  if !addressListed recipients recipient then throw .policyDenied

/-- `permit2_request_shape`: the amount, if every field fits its type. -/
def permit2RequestShape (p2 : Permit2Request) : Option Nat := do
  guard (p2.expiration.toNat ≤ 2 ^ 48 - 1 ∧ p2.nonce.toNat ≤ 2 ^ 48 - 1)
  let amount ← parseU256Decimal p2.amount
  guard (amount < 2 ^ 160)
  let _ ← parseU256Decimal p2.sigDeadline
  pure amount

/-- `permit2_allow_list`: an absent, empty or malformed list is a broken policy, an
address that is not listed is denied. -/
def permit2AllowList (list : Option (List String)) (needle : Bytes) : Except ErrCode Unit :=
  match list with
  | none => .error .policyRequired
  | some items =>
    if items.isEmpty then .error .policyRequired
    else if items.any fun item => (parseEvmAddress item).isNone then .error .policyRequired
    else if items.any fun item => parseEvmAddress item = some needle then .ok ()
    else .error .policyDenied

def enforcePermit2Allowance (policy : Option Policy) (permit : PermitSingle) :
    Except ErrCode Unit := do
  let p ← required policy
  let c ← required p.permit2
  if permit.amount = 2 ^ 160 - 1 then throw .policyDenied
  let chainId ← required c.chainId
  if chainId ≠ permit.chainId then throw .policyDenied
  let contract ← required c.verifyingContract
  let contract ← required (parseEvmAddress contract)
  if contract ≠ permit.verifyingContract then throw .policyDenied
  permit2AllowList c.allowedTokens permit.token
  permit2AllowList c.allowedSpenders permit.spender
  let max ← required c.maxAmount
  let max ← required (parseU256Decimal max)
  if max < permit.amount then throw .policyDenied
  let maxExpiration ← required c.maxExpiration
  if maxExpiration < permit.expiration then throw .policyDenied

end Signer
