import Signer.Env

/-!
# Canonical strings of the HMAC venues

Each venue signs a string it assembles from the request: Binance the query and the
body, Bybit the timestamp, key, window and payload, KuCoin and OKX the timestamp,
method, path and body without separators. Methods reach these functions validated
against a list of ASCII verbs, so upper-casing is ASCII upper-casing.
-/

namespace Signer

open Text

def allowedMethods : List String := ["GET", "POST", "PUT", "DELETE"]

structure HmacHeaders where
  secret : String
  message : String
  headers : List (String × String)
  deriving DecidableEq, Repr

/-- `hmac_sha256` of a text under a textual secret. -/
def hmacText (env : Env) (secret text : String) : Bytes :=
  env.hmacSha256 (bytes secret) (bytes text)

def decimalText (n : UInt64) : String := n.toNat.repr

def kucoinCanonical (timestampMs : UInt64) (method path body : String) : String :=
  decimalText timestampMs ++ toAsciiUppercase method ++ path ++ body

def computeKucoinHeaders (env : Env) (secret passphrase key : String) (timestampMs : UInt64)
    (method path body : String) : HmacHeaders :=
  let message := kucoinCanonical timestampMs method path body
  { secret, message,
    headers := [("KC-API-KEY", key), ("KC-API-KEY-VERSION", "2"),
      ("KC-API-PASSPHRASE", env.base64Encode (hmacText env secret passphrase)),
      ("KC-API-SIGN", env.base64Encode (hmacText env secret message)),
      ("KC-API-TIMESTAMP", decimalText timestampMs)] }

def binanceCanonical (query body : String) : String := query ++ body

/-- The query `compute_binance_headers` signs: the user's, the time and the window. -/
def binanceFullQuery (timestampMs : UInt64) (userQuery : String) : String :=
  (if userQuery = "" then "" else userQuery ++ "&") ++
    "timestamp=" ++ decimalText timestampMs ++ "&recvWindow=" ++ "5000"

def computeBinanceHeaders (env : Env) (secret key : String) (timestampMs : UInt64)
    (userQuery body : String) : HmacHeaders :=
  let message := binanceCanonical (binanceFullQuery timestampMs userQuery) body
  { secret, message,
    headers := [("X-MBX-APIKEY", key), ("recvWindow", "5000"),
      ("signature", hexEncode (hmacText env secret message)),
      ("timestamp", decimalText timestampMs)] }

def bybitCanonical (timestampMs : UInt64) (apiKey recvWindow queryOrBody : String) : String :=
  decimalText timestampMs ++ apiKey ++ recvWindow ++ queryOrBody

def bybitPayload (method query body : String) : String :=
  if toAsciiUppercase method = "GET" ∨ toAsciiUppercase method = "DELETE" then query
  else body

def computeBybitHeaders (env : Env) (secret key : String) (timestampMs : UInt64)
    (method query body : String) : HmacHeaders :=
  let message := bybitCanonical timestampMs key "5000" (bybitPayload method query body)
  { secret, message,
    headers := [("X-BAPI-API-KEY", key), ("X-BAPI-RECV-WINDOW", "5000"),
      ("X-BAPI-SIGN", hexEncode (hmacText env secret message)),
      ("X-BAPI-SIGN-TYPE", "2"), ("X-BAPI-TIMESTAMP", decimalText timestampMs)] }

/-- A number in at least `width` decimal digits. -/
def padDecimal (width n : Nat) : List Char :=
  List.replicate (width - (Nat.toDigits 10 n).length) '0' ++ Nat.toDigits 10 n

structure CivilTime where
  year : Nat
  month : Nat
  day : Nat
  hour : Nat
  minute : Nat
  second : Nat
  millis : Nat
  deriving DecidableEq, Repr

/-- The civil time of a millisecond timestamp, by the day count of `okx_iso8601_from_ms`. -/
def civilTime (timestampMs : UInt64) : CivilTime :=
  let totalSecs := timestampMs.toNat / 1000
  let secondsOfDay := totalSecs % 86400
  let z := totalSecs / 86400 + 719468
  let era := z / 146097
  let doe := z - era * 146097
  let yoe := (doe - doe / 1460 + doe / 36524 - doe / 146096) / 365
  let y := yoe + era * 400
  let doy := doe - (365 * yoe + yoe / 4 - yoe / 100)
  let mp := (5 * doy + 2) / 153
  let m := if mp < 10 then mp + 3 else mp - 9
  { year := if m ≤ 2 then y + 1 else y
    month := m
    day := doy - (153 * mp + 2) / 5 + 1
    hour := secondsOfDay / 3600
    minute := secondsOfDay % 3600 / 60
    second := secondsOfDay % 60
    millis := timestampMs.toNat % 1000 }

def CivilTime.stamp (c : CivilTime) : List Char :=
  padDecimal 4 c.year ++ '-' :: padDecimal 2 c.month ++ '-' :: padDecimal 2 c.day ++
    'T' :: padDecimal 2 c.hour ++ ':' :: padDecimal 2 c.minute ++ ':' :: padDecimal 2 c.second ++
    '.' :: padDecimal 3 c.millis

def okxIso8601FromMs (timestampMs : UInt64) : String :=
  .ofList ((civilTime timestampMs).stamp ++ ['Z'])

def okxCanonical (timestampIso method requestPath body : String) : String :=
  timestampIso ++ toAsciiUppercase method ++ requestPath ++ body

def isHeaderChar (c : Char) : Bool := c = '\t' ∨ (0x20 ≤ c.toNat ∧ c.toNat ≤ 0x7e)

/-- `compute_okx_headers`: nothing if the passphrase cannot be a header value. -/
def computeOkxHeaders (env : Env) (secret passphrase key : String) (timestampMs : UInt64)
    (method requestPath body : String) : Option HmacHeaders :=
  let timestampIso := okxIso8601FromMs timestampMs
  let message := okxCanonical timestampIso method requestPath body
  if !passphrase.toList.all isHeaderChar then none
  else
    some
      { secret, message,
        headers := [("OK-ACCESS-KEY", key), ("OK-ACCESS-PASSPHRASE", passphrase),
          ("OK-ACCESS-SIGN", env.base64Encode (hmacText env secret message)),
          ("OK-ACCESS-TIMESTAMP", timestampIso)] }

end Signer
