import Mathlib.Data.List.AList
import Signer.Env

/-!
# Pinned policy keys

The first signed policy accepted for a customer and venue pins its key in memory.
Later policies for that pair must be signed by the same key.
-/

namespace Signer

def maxPins : Nat := 256

/-- `PinStore`: pinned keys by customer and venue. -/
abbrev PinStore := AList fun _ : String => Bytes

inductive TofuError where
  | badPubkeyLength | badSignatureLength | pubkeyHex | signatureHex | invalidPubkey
  | signatureInvalid | pubkeyMismatch | pinnedKeyUnsigned | pinStoreFull
  deriving DecidableEq, Repr

namespace PinStore

/-- `require_if_pinned`: an unsigned policy is refused where a key is pinned. -/
def requireIfPinned (pins : PinStore) (key : String) : Except TofuError Unit :=
  if key ∈ pins then .error .pinnedKeyUnsigned else .ok ()

/-- The part of `verify_and_pin` before the lock: the key and signature decode and the
signature verifies. The key is returned. -/
def verify (env : Env) (policyJson : Bytes) (signerPubkeyHex policySignatureHex : String) :
    Except TofuError Bytes :=
  if signerPubkeyHex.utf8ByteSize ≠ 64 then .error .badPubkeyLength
  else if policySignatureHex.utf8ByteSize ≠ 128 then .error .badSignatureLength
  else
    match Text.hexDecode signerPubkeyHex, Text.hexDecode policySignatureHex with
    | none, _ => .error .pubkeyHex
    | some _, none => .error .signatureHex
    | some pk, some sig =>
      if !env.ed25519KeyValid pk then .error .invalidPubkey
      else if !env.ed25519Verify pk policyJson sig then .error .signatureInvalid
      else .ok pk

/-- The locked part of `verify_and_pin`: compare with the pin, or pin. -/
def pin (pins : PinStore) (key : String) (pk : Bytes) : Except TofuError Unit × PinStore :=
  match pins.lookup key with
  | some pinned => (if pinned ≠ pk then .error .pubkeyMismatch else .ok (), pins)
  | none =>
    if maxPins ≤ pins.entries.length then (.error .pinStoreFull, pins)
    else (.ok (), pins.insert key pk)

def verifyAndPin (env : Env) (pins : PinStore) (key : String) (policyJson : Bytes)
    (signerPubkeyHex policySignatureHex : String) : Except TofuError Unit × PinStore :=
  match verify env policyJson signerPubkeyHex policySignatureHex with
  | .error e => (.error e, pins)
  | .ok pk => pins.pin key pk

theorem pin_isOk_iff {pins : PinStore} {key : String} {pk : Bytes} :
    (pins.pin key pk).1 = .ok () ↔
      pins.lookup key = some pk ∨ key ∉ pins ∧ pins.entries.length < maxPins := by
  unfold pin
  cases hlookup : pins.lookup key with
  | none =>
    have hfree : key ∉ pins := AList.lookup_eq_none.mp hlookup
    rcases le_or_gt maxPins pins.entries.length with hfull | hroom
    · simp [hfull, hfree]
    · simp [hroom, hfree, not_le.mpr hroom]
  | some pinned =>
    have hmem : key ∈ pins := AList.lookup_isSome.mp (by simp [hlookup])
    by_cases hsame : pinned = pk <;> simp [hsame, hmem]

end PinStore

end Signer
