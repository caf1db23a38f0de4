import Mathlib.Algebra.Ring.Nat
import Signer.Env

/-!
# Typed-data signatures

The secp256k1 signatures of `signer.rs`: Hyperliquid actions, Asterdex messages,
EIP-3009 payments, Permit2 allowances and attested data, each a Keccak digest of the
words its type prescribes.
-/

namespace Signer

open Text

def abiWordFromAddress (addr : Bytes) : Bytes := List.replicate 12 0 ++ addr

def abiWordFromU64 (n : UInt64) : Bytes := List.replicate 24 0 ++ beBytes 8 n.toNat

/-- The string without a leading `0x`. -/
def stripHexMark (s : String) : String :=
  match s.toList with
  | '0' :: 'x' :: rest => .ofList rest
  | _ => s

/-- Exactly `n` bytes in hexadecimal, with or without `0x`. -/
def parseHexBytes (n : Nat) (s : String) : Option Bytes :=
  if (stripHexMark s).utf8ByteSize ≠ 2 * n then none else hexDecode (stripHexMark s)

def parseEvmPrivateKey (s : String) : Option Bytes := parseHexBytes 32 s

def parseEvmAddress (s : String) : Option Bytes := parseHexBytes 20 s

def parseBytes32Hex (s : String) : Option Bytes := parseHexBytes 32 s

/-- One step of `parse_u256_be_decimal`: multiply by ten and add a digit. The carry out
of the last byte is an overflow. -/
def accumulateDigit (acc : Nat) (digit : Char) : Option Nat :=
  let next := acc * 10 + (digit.toNat - '0'.toNat)
  if next < 2 ^ 256 then some next else none

/-- `parse_u256_be_decimal`, as a number; its bytes are `beBytes 32`. -/
def parseU256Decimal (s : String) : Option Nat :=
  let digits := (trim s).toList
  if digits = [] ∨ !digits.all isAsciiDigit then none else digits.foldlM accumulateDigit 0

def eip712Digest (env : Env) (domainSeparator structHash : Bytes) : Bytes :=
  env.keccak256 (0x19 :: 0x01 :: domainSeparator ++ structHash)

def eip712TypeHash (env : Env) (typeString : String) : Bytes :=
  env.keccak256 (bytes typeString)

def eip712DomainSeparator (env : Env) (name version : String) (chainId : UInt64)
    (verifyingContract : Bytes) : Bytes :=
  env.keccak256
    (eip712TypeHash env
        "EIP712Domain(string name,string version,uint256 chainId,address verifyingContract)" ++
      env.keccak256 (bytes name) ++ env.keccak256 (bytes version) ++
      abiWordFromU64 chainId ++ abiWordFromAddress verifyingContract)

def signEip712Digest (env : Env) (privateKey digest : Bytes) : Option HlSignature :=
  if !env.secp256k1KeyValid privateKey then none
  else
    (env.secp256k1Sign privateKey digest).map fun signed =>
      { r := "0x" ++ hexEncode (signed.1.take 32)
        s := "0x" ++ hexEncode (signed.1.drop 32)
        v := 27 + signed.2 }

/-- The 65-byte form `r ‖ s ‖ v` of a signature, in hexadecimal. -/
def HlSignature.concat (sig : HlSignature) : String :=
  "0x" ++ stripHexMark sig.r ++ stripHexMark sig.s ++ hexEncode [sig.v]

def deriveAddress (env : Env) (privateKey : Bytes) : Option Bytes :=
  if !env.secp256k1KeyValid privateKey then none
  else
    let encoded := env.secp256k1PublicKey privateKey
    if encoded.length ≠ 65 ∨ encoded.head? ≠ some 0x04 then none
    else some ((env.keccak256 (encoded.drop 1)).drop 12)

/-- `attested_data_pubkey`: the compressed key and the address. -/
def attestedDataPubkey (env : Env) (privateKey : Bytes) : Option (String × String) :=
  if !env.secp256k1KeyValid privateKey then none
  else
    (deriveAddress env privateKey).map fun address =>
      ("0x" ++ hexEncode (env.secp256k1PublicKeyCompressed privateKey),
        "0x" ++ hexEncode address)

def computeActionHash (env : Env) (action : Json) (nonce : UInt64) (vault : Option Bytes) :
    Option Bytes :=
  (env.msgpack action).map fun packed =>
    env.keccak256 (packed ++ beBytes 8 nonce.toNat ++
      match vault with
      | none => [0x00]
      | some addr => 0x01 :: addr)

def signHyperliquid (env : Env) (privateKey : Bytes) (action : Json) (nonce : UInt64)
    (vault : Option Bytes) (source : String) : Option HlSignature := do
  let actionHash ← computeActionHash env action nonce vault
  let structHash := env.keccak256
    (eip712TypeHash env "Agent(string source,bytes32 connectionId)" ++
      env.keccak256 (bytes source) ++ actionHash)
  let domain := eip712DomainSeparator env "Exchange" "1" 1337 (List.replicate 20 0)
  signEip712Digest env privateKey (eip712Digest env domain structHash)

def signAsterdex (env : Env) (privateKey : Bytes) (msg : String) : Option String :=
  let structHash := env.keccak256
    (eip712TypeHash env "Message(string msg)" ++ env.keccak256 (bytes msg))
  let domain := eip712DomainSeparator env "AsterSignTransaction" "1" 1666 (List.replicate 20 0)
  (signEip712Digest env privateKey (eip712Digest env domain structHash)).map HlSignature.concat

structure TransferAuthorization where
  tokenName : String
  tokenVersion : String
  chainId : UInt64
  tokenAddress : Bytes
  sender : Bytes
  recipient : Bytes
  value : Nat
  validAfter : UInt64
  validBefore : UInt64
  nonce : Bytes
  deriving DecidableEq, Repr

def signX402Eip3009 (env : Env) (privateKey : Bytes) (t : TransferAuthorization) : Option String :=
  let structHash := env.keccak256
    (eip712TypeHash env
        ("TransferWithAuthorization(address from,address to,uint256 value,uint256 validAfter," ++
          "uint256 validBefore,bytes32 nonce)") ++
      abiWordFromAddress t.sender ++ abiWordFromAddress t.recipient ++ beBytes 32 t.value ++
      abiWordFromU64 t.validAfter ++ abiWordFromU64 t.validBefore ++ t.nonce)
  let domain := eip712DomainSeparator env t.tokenName t.tokenVersion t.chainId t.tokenAddress
  (signEip712Digest env privateKey (eip712Digest env domain structHash)).map HlSignature.concat

structure PermitSingle where
  chainId : UInt64
  verifyingContract : Bytes
  token : Bytes
  amount : Nat
  expiration : UInt64
  nonce : UInt64
  spender : Bytes
  sigDeadline : Nat
  deriving DecidableEq, Repr

/-- `permit2_permit_single_digest`: nothing if a field is wider than its type. -/
def permit2Digest (env : Env) (p : PermitSingle) : Option Bytes :=
  if 2 ^ 160 ≤ p.amount then none
  else if 2 ^ 48 - 1 < p.expiration.toNat ∨ 2 ^ 48 - 1 < p.nonce.toNat then none
  else
    let details := env.keccak256
      (eip712TypeHash env
          "PermitDetails(address token,uint160 amount,uint48 expiration,uint48 nonce)" ++
        abiWordFromAddress p.token ++ beBytes 32 p.amount ++ abiWordFromU64 p.expiration ++
        abiWordFromU64 p.nonce)
    let single := env.keccak256
      (eip712TypeHash env
          ("PermitSingle(PermitDetails details,address spender,uint256 sigDeadline)" ++
            "PermitDetails(address token,uint160 amount,uint48 expiration,uint48 nonce)") ++
        details ++ abiWordFromAddress p.spender ++ beBytes 32 p.sigDeadline)
    let domain := env.keccak256
      (eip712TypeHash env "EIP712Domain(string name,uint256 chainId,address verifyingContract)" ++
        env.keccak256 (bytes "Permit2") ++ abiWordFromU64 p.chainId ++
        abiWordFromAddress p.verifyingContract)
    some (eip712Digest env domain single)

def signPermit2PermitSingle (env : Env) (privateKey : Bytes) (p : PermitSingle) :
    Option String := do
  let digest ← permit2Digest env p
  let sig ← signEip712Digest env privateKey digest
  pure sig.concat

end Signer
