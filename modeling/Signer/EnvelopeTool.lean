import Signer.AgentKey
import Signer.LoadHistory
import Signer.PolicySigned

/-!
# Envelopes made by the operator

`policy-cli envelope` encrypts a policy and a secret under a fresh data key, and `seal` puts the
data key, wrapped by KMS, into the envelope. The enclave opens an envelope with the identity of the
caller as associated data. The tool encrypts without any, so what it seals is never opened.
-/

namespace Signer

open Text Serde

/-- The deserializer of the enclave's `Envelope`. -/
def Envelope.read : Reader Envelope := fun v => do
  let found ← record ["version", "wrapped_dek", "nonce", "ciphertext"] false v
  let version ← mandatory u64 (found.lookup "version")
  let wrappedDek ← mandatory string (found.lookup "wrapped_dek")
  let nonce ← mandatory string (found.lookup "nonce")
  let ciphertext ← mandatory string (found.lookup "ciphertext")
  pure { version, wrappedDek, nonce, ciphertext }

theorem Envelope.read_toJson (e : Envelope) : read e.toJson = some e := by
  have hnames : ["version", "wrapped_dek", "nonce", "ciphertext"].Nodup := by decide
  rw [read, toJson, record_object (by exact hnames) (by simp)]
  rfl

namespace PolicyCli

/-! ### The tool -/

inductive WrapError where
  | badPolicy
  | roundTrip
  | badSecret
  | secretNotObject
  | sanity (error : SanityError)
  | serialize
  | encrypt
  deriving DecidableEq, Repr

inductive SealError where
  | badEnvelope
  | noVersion
  | unsupportedVersion (version : UInt64)
  | emptyDek
  | dekNotBase64
  | serialize
  | badSealed
  | shortDek (length : ℕ)
  deriving DecidableEq, Repr

/-- The sanity check, unless `--skip-sanity-check` is given. -/
def checkSanity (skip : Bool) (policy : Policy) : Except WrapError Unit :=
  if skip then .ok () else (sanityCheckPolicy policy).mapError .sanity

def loadPolicyAndSecret (tool : WrapEnv) (skip : Bool) (policyBytes secretBytes : Bytes) :
    Except WrapError (Policy × Json) := do
  let policy ← orError .badPolicy ((tool.treeFromSlice policyBytes).bind Policy.read)
  (assertPolicyRoundTrip tool policyBytes policy).mapError fun _ => .roundTrip
  let secret ← orError .badSecret ((tool.treeFromSlice secretBytes).map value)
  bailIf (!secret.isObject) .secretNotObject
  checkSanity skip policy
  pure (policy, secret)

/-- The serialized `PolicyWrappedSecret`. -/
def wrappedJson (policy : Policy) (secret : Json) : Json :=
  .object [("policy", policy.toJson), ("secret", secret)]

structure PreEnvelope where
  version : UInt64
  wrappedDek : String
  nonce : String
  ciphertext : String
  deriving DecidableEq, Repr

/-- The serialized `PreEnvelope`. -/
def PreEnvelope.toJson (e : PreEnvelope) : Json :=
  .object [("version", Signer.Policy.unsigned e.version), ("wrapped_dek", .string e.wrappedDek),
    ("nonce", .string e.nonce), ("ciphertext", .string e.ciphertext)]

def preEnvelope (tool : WrapEnv) (nonce ciphertext : Bytes) : PreEnvelope where
  version := 2
  wrappedDek := "PLACEHOLDER_RUN_SEAL_AFTER_KMS_ENCRYPT"
  nonce := tool.base64Encode nonce
  ciphertext := tool.base64Encode ciphertext

/-- `cmd_envelope`, with the data key and the nonce it has drawn: the text of `envelope.json`. The
cipher is given no associated data. -/
def cmdEnvelope (tool : WrapEnv) (skip : Bool) (policyBytes secretBytes dek nonce : Bytes) :
    Except WrapError Bytes := do
  let wrapped ← loadPolicyAndSecret tool skip policyBytes secretBytes
  let plaintext ← orError .serialize (tool.toVec (wrappedJson wrapped.1 wrapped.2))
  let ciphertext ← orError .encrypt (tool.aesGcmEncrypt dek nonce [] plaintext)
  orError .serialize (tool.toVecPretty (preEnvelope tool nonce ciphertext).toJson)

def setMember (name : String) (v : Json) : List (String × Json) → List (String × Json)
  | [] => [(name, v)]
  | (other, w) :: members =>
    if other = name then (name, v) :: members else (other, w) :: setMember name v members

/-- `value[name] = v`. Only objects get here. -/
def assign (name : String) (v : Json) : Json → Json
  | .object members => .object (setMember name v members)
  | other => other

/-- `cmd_seal`: the text of the sealed blob. -/
def cmdSeal (tool : WrapEnv) (envelopeBytes : Bytes) (wrappedDekB64 : String) :
    Except SealError Bytes := do
  let document ← orError .badEnvelope ((tool.treeFromSlice envelopeBytes).map value)
  let version ← orError .noVersion ((document.get "version").bind Json.asU64)
  bailIf (version ≠ 2) (.unsupportedVersion version)
  let trimmed := trim wrappedDekB64
  bailIf (trimmed = "") .emptyDek
  let _ ← orError .dekNotBase64 (tool.base64Decode trimmed)
  let sealed ← orError .serialize (tool.toVec (assign "wrapped_dek" (.string trimmed) document))
  let check ← orError .badSealed ((tool.treeFromSlice sealed).map value)
  let dek := ((check.get "wrapped_dek").bind Json.asStr).bind tool.base64Decode
  let length := (dek.map List.length).getD 0
  bailIf (length < 128) (.shortDek length)
  pure sealed

/-! ### What the commands leave behind -/

structure SealedAs (tool : WrapEnv) (aad dek nonce : Bytes) (policy : Policy) (secret : Json)
    (wrappedDek : String) (blob plaintext ciphertext : Bytes) : Prop where
  serialized : tool.toVec (wrappedJson policy secret) = some plaintext
  encrypted : tool.aesGcmEncrypt dek nonce aad plaintext = some ciphertext
  written : tool.toVec
    ({ preEnvelope tool nonce ciphertext with wrappedDek } : PreEnvelope).toJson = some blob

/-- The tool and the enclave read and write alike, and AES-GCM opens only with what it sealed with.
-/
structure EnvelopeLaws (tool : WrapEnv) (env : Env) : Prop where
  value_eq : ∀ text, env.jsonFromSlice text = (tool.treeFromSlice text).map value
  envelope_eq : ∀ text, env.envelopeFromSlice text = (tool.treeFromSlice text).bind Envelope.read
  read_pretty : ∀ (e : PreEnvelope) text, tool.toVecPretty e.toJson = some text →
    tool.treeFromSlice text = some e.toJson
  read_compact : ∀ (e : PreEnvelope) text, tool.toVec e.toJson = some text →
    tool.treeFromSlice text = some e.toJson
  base64Decode_encode : ∀ b, env.base64Decode (tool.base64Encode b) = some b
  aesGcm : ∀ {key nonce aad plaintext ciphertext},
    tool.aesGcmEncrypt key nonce aad plaintext = some ciphertext → ∀ key' nonce' aad',
      env.aesGcmDecrypt key' nonce' aad' ciphertext =
        if key' = key ∧ nonce' = nonce ∧ aad' = aad then some plaintext else none

section

variable {tool : WrapEnv} {env : Env} {skip : Bool}
  {policyBytes secretBytes dek nonce preText blob aad plaintext ciphertext : Bytes}
  {policy : Policy} {secret : Json} {wrappedDek : String}

theorem cmdEnvelope_ok (h : cmdEnvelope tool skip policyBytes secretBytes dek nonce = .ok preText) :
    ∃ policy secret plaintext ciphertext,
      loadPolicyAndSecret tool skip policyBytes secretBytes = .ok (policy, secret) ∧
      tool.toVec (wrappedJson policy secret) = some plaintext ∧
      tool.aesGcmEncrypt dek nonce [] plaintext = some ciphertext ∧
      tool.toVecPretty (preEnvelope tool nonce ciphertext).toJson = some preText := by
  obtain ⟨⟨policy, secret⟩, hload, h⟩ := bind_eq_ok.mp h
  obtain ⟨plaintext, hplaintext, h⟩ := bind_eq_ok.mp h
  obtain ⟨ciphertext, hciphertext, h⟩ := bind_eq_ok.mp h
  exact ⟨policy, secret, plaintext, ciphertext, hload, orError_eq_ok.mp hplaintext,
    orError_eq_ok.mp hciphertext, orError_eq_ok.mp h⟩

theorem cmdSeal_ok (h : cmdSeal tool preText wrappedDek = .ok blob) :
    ∃ tree, tool.treeFromSlice preText = some tree ∧
      tool.toVec (assign "wrapped_dek" (.string (trim wrappedDek)) (value tree)) =
        some blob := by
  obtain ⟨document, hdocument, h⟩ := bind_eq_ok.mp h
  obtain ⟨tree, htree, rfl⟩ := Option.map_eq_some_iff.mp (orError_eq_ok.mp hdocument)
  obtain ⟨_, _, h⟩ := bind_eq_ok.mp h
  obtain ⟨_, _, h⟩ := bind_eq_ok.mp h
  obtain ⟨_, _, h⟩ := bind_eq_ok.mp h
  obtain ⟨_, _, h⟩ := bind_eq_ok.mp h
  obtain ⟨sealed, hsealed, h⟩ := bind_eq_ok.mp h
  obtain ⟨_, _, h⟩ := bind_eq_ok.mp h
  obtain ⟨_, _, h⟩ := bind_eq_ok.mp h
  cases h
  exact ⟨tree, htree, orError_eq_ok.mp hsealed⟩

theorem assign_wrappedDek (e : PreEnvelope) :
    assign "wrapped_dek" (.string wrappedDek) (value e.toJson) =
      ({ e with wrappedDek } : PreEnvelope).toJson :=
  rfl

theorem sealedAs_nil (hlaws : EnvelopeLaws tool env)
    (henvelope : cmdEnvelope tool skip policyBytes secretBytes dek nonce = .ok preText)
    (hseal : cmdSeal tool preText wrappedDek = .ok blob) :
    ∃ policy secret plaintext ciphertext,
      loadPolicyAndSecret tool skip policyBytes secretBytes = .ok (policy, secret) ∧
      SealedAs tool [] dek nonce policy secret (trim wrappedDek) blob plaintext
        ciphertext := by
  obtain ⟨policy, secret, plaintext, ciphertext, hload, hserialized, hencrypted, hpretty⟩ :=
    cmdEnvelope_ok henvelope
  obtain ⟨tree, htree, hwritten⟩ := cmdSeal_ok hseal
  obtain rfl := Option.mem_unique (hlaws.read_pretty _ _ hpretty) htree
  rw [assign_wrappedDek] at hwritten
  exact ⟨policy, secret, plaintext, ciphertext, hload, hserialized, hencrypted, hwritten⟩

/-! ### What the enclave makes of it -/

def PreEnvelope.toEnclave (e : PreEnvelope) : Envelope where
  version := e.version
  wrappedDek := e.wrappedDek
  nonce := e.nonce
  ciphertext := e.ciphertext

theorem PreEnvelope.toJson_toEnclave (e : PreEnvelope) : e.toEnclave.toJson = e.toJson := rfl

/-- The envelope that `seal` writes, as the enclave reads it. -/
def operatorEnvelope (tool : WrapEnv) (nonce ciphertext : Bytes) (wrappedDek : String) : Envelope :=
  ({ preEnvelope tool nonce ciphertext with wrappedDek } : PreEnvelope).toEnclave

variable (hlaws : EnvelopeLaws tool env)
  (h : SealedAs tool aad dek nonce policy secret wrappedDek blob plaintext ciphertext)

include hlaws h

theorem SealedAs.tree :
    tool.treeFromSlice blob = some (operatorEnvelope tool nonce ciphertext wrappedDek).toJson :=
  hlaws.read_compact _ _ h.written

theorem SealedAs.isEnvelope : isEnvelope env blob = true := by
  rw [Signer.isEnvelope, hlaws.value_eq, h.tree hlaws]
  rfl

theorem SealedAs.parseEnvelope :
    parseEnvelope env blob = some (operatorEnvelope tool nonce ciphertext wrappedDek) := by
  rw [Signer.parseEnvelope, hlaws.envelope_eq, h.tree hlaws, Option.bind_some, Envelope.read_toJson]
  rfl

theorem SealedAs.decryptWithDek_eq (dek' aad' : Bytes) :
    decryptWithDek env dek' (operatorEnvelope tool nonce ciphertext wrappedDek) aad' =
      if dek'.length = 32 ∧ nonce.length = 12 ∧ dek' = dek ∧ aad' = aad then some plaintext
      else none := by
  have hnonce : env.base64Decode (operatorEnvelope tool nonce ciphertext wrappedDek).nonce =
      some nonce := hlaws.base64Decode_encode nonce
  have hciphertext :
      env.base64Decode (operatorEnvelope tool nonce ciphertext wrappedDek).ciphertext =
        some ciphertext := hlaws.base64Decode_encode ciphertext
  rw [decryptWithDek, hnonce, hciphertext]
  by_cases hdek : dek'.length = 32
  · by_cases hlength : nonce.length = 12
    · simp [hdek, hlength, hlaws.aesGcm h.encrypted]
    · simp [hlength]
  · simp [hdek]

theorem SealedAs.openUncached_eq {creds : AwsCredentials} {ctx : EncryptionContext}
    {wrapped : Bytes} (aad' : Bytes)
    (hdek : dek.length = 32) (hnonce : nonce.length = 12)
    (hwrapped : env.base64Decode wrappedDek = some wrapped)
    (hkms : env.kmsDecrypt creds wrapped ctx = .ok dek) :
    openUncached env creds blob ctx aad' =
      if aad' = aad then .ok plaintext else .error .internal := by
  have hdecode : env.base64Decode (operatorEnvelope tool nonce ciphertext wrappedDek).wrappedDek =
      some wrapped := hwrapped
  simp only [openUncached, h.parseEnvelope hlaws, hdecode, kmsDecrypt_eq_ok hkms,
    h.decryptWithDek_eq hlaws, hdek, hnonce, true_and]
  split <;> rfl

theorem SealedAs.sealedAad_eq {amb : Ambient} {req : SignRequest} {identity : ResolvedIdentity}
    {venue : String} {s s' : Enclave} {t : List Event} {content : Bytes}
    (hreq : req.ciphertextBlobBase64.bind env.base64Decode = some blob)
    (hload : (loadSecretFor env amb req identity venue).Returns s content s' t) :
    identity.sealedAad venue keyVersion = aad := by
  obtain ⟨-, creds, hopen⟩ := openEnvelope_of_returns hload hreq (h.isEnvelope hlaws)
  obtain ⟨envelope, wrapped, dek', hparse, -, -, hdecrypt⟩ := openEnvelope_returns hopen
  obtain rfl := Option.mem_unique (h.parseEnvelope hlaws) hparse
  rw [h.decryptWithDek_eq hlaws, Option.ite_none_right_eq_some] at hdecrypt
  exact hdecrypt.1.2.2.2

end

end PolicyCli

theorem ResolvedIdentity.sealedAad_ne_nil (identity : ResolvedIdentity) (venue : String)
    (version : ℕ) : identity.sealedAad venue version ≠ [] := by
  have hlabel : bytes "customer_id=" ≠ [] := by decide
  simp [sealedAad, hlabel]

/-- The request's blob loads under the identity, to this policy and this secret. -/
def OpensTo (env : Env) (amb : Ambient) (req : SignRequest) (identity : ResolvedIdentity)
    (venue : String) (s : Enclave) (policy : Policy) (secret : Json) : Prop :=
  ∃ plaintext s' t, (loadSecretFor env amb req identity venue).Returns s plaintext s' t ∧
    parseBlob env plaintext = some (.withPolicy policy secret)

/-- What `envelope` and `seal` accept never opens to the policy and the secret that went in,
whatever identity presents it and whatever KMS answers: it is encrypted without associated data,
and the enclave always asks for some. -/
theorem operator_envelope_never_opens {tool : PolicyCli.WrapEnv} {env : Env}
    (hlaws : PolicyCli.EnvelopeLaws tool env) {skip : Bool}
    {policyText secretText dek nonce preText blob : Bytes} {wrappedDek : String}
    (henvelope : PolicyCli.cmdEnvelope tool skip policyText secretText dek nonce = .ok preText)
    (hseal : PolicyCli.cmdSeal tool preText wrappedDek = .ok blob) :
    ∃ policy secret,
      PolicyCli.loadPolicyAndSecret tool skip policyText secretText = .ok (policy, secret) ∧
      ∀ amb req identity venue s, req.ciphertextBlobBase64.bind env.base64Decode = some blob →
        ¬OpensTo env amb req identity venue s policy.toEnclave secret := by
  obtain ⟨policy, secret, plaintext, ciphertext, hload, hsealed⟩ :=
    PolicyCli.sealedAs_nil hlaws henvelope hseal
  refine ⟨policy, secret, hload, ?_⟩
  rintro amb req identity venue s hreq ⟨content, s', t, hreturns, -⟩
  exact identity.sealedAad_ne_nil venue keyVersion (hsealed.sealedAad_eq hlaws hreq hreturns)

namespace PolicyCli.Sample

def secretText : Bytes := bytes "\x7b\"key\":\"k\",\"secret\":\"s\"\x7d"

def secretJson : Json := .object [("key", .string "k"), ("secret", .string "s")]

def wrappedText : Bytes :=
  bytes "\x7b\"policy\":" ++ canonical ++ bytes ",\"secret\":" ++ secretText ++
    bytes "\x7d"

def dek : Bytes := List.replicate 32 5

def nonce : Bytes := List.replicate 12 6

def ciphertext : Bytes := List.replicate 155 1

def wrappedDek : Bytes := List.replicate 160 9

def pre : PreEnvelope where
  version := 2
  wrappedDek := "PLACEHOLDER_RUN_SEAL_AFTER_KMS_ENCRYPT"
  nonce := base64Encode nonce
  ciphertext := base64Encode ciphertext

def prettyText (e : PreEnvelope) : Bytes :=
  bytes ("\x7b\n  \"version\": 2,\n  \"wrapped_dek\": \"" ++ e.wrappedDek ++
    "\",\n  \"nonce\": \"" ++ e.nonce ++ "\",\n  \"ciphertext\": \"" ++ e.ciphertext ++ "\"\n\x7d")

def preText : Bytes := prettyText pre

noncomputable def sealTool : WrapEnv :=
  { tool with
    treeFromSlice := fun text =>
      if text = preText then some pre.toJson else Signer.Sample.readCompact text
    toVec := compactBytes
    toVecPretty := fun json =>
      if Envelope.read json = some pre.toEnclave then some preText else none
    aesGcmEncrypt := fun key nonce' aad plaintext =>
      if key = dek ∧ nonce' = nonce ∧ aad = [] ∧ plaintext = wrappedText then some ciphertext
      else none
    base64Encode := base64Encode
    base64Decode := base64Decode }

noncomputable def sealEnv : Env :=
  { Signer.Sample.env Signer.Sample.bareBlob with
    jsonFromSlice := fun text => (sealTool.treeFromSlice text).map value
    envelopeFromSlice := fun text => (sealTool.treeFromSlice text).bind Envelope.read
    base64Decode := base64Decode
    aesGcmDecrypt := fun key nonce' aad ciphertext' =>
      if ciphertext' = ciphertext ∧ key = dek ∧ nonce' = nonce ∧ aad = [] then some wrappedText
      else none
    kmsDecrypt := fun _ wrapped ctx =>
      if wrapped = wrappedDek ∧ ctx = { customerId := "acme", venueId := "binance" } then .ok dek
      else .error .accessDenied }

theorem compactBytes_ne_prettyText {name : String} {v : Json} {members : List (String × Json)}
    {text : Bytes} (e : PreEnvelope)
    (h : compactBytes (.object ((name, v) :: members)) = some text) : text ≠ prettyText e := by
  obtain ⟨chars, hchars, rfl⟩ := Option.map_eq_some_iff.mp h
  simp only [compactText, do_eq_some, pure_eq_some] at hchars
  obtain ⟨text, -, texts, -, rfl⟩ := hchars
  refine bytes_injective.ne fun heq => ?_
  have hsecond := congrArg (fun s => (s.toList.drop 1).head?) heq
  simp [jcsString] at hsecond

theorem sealTool_read {name : String} {v : Json} {members : List (String × Json)} {text : Bytes}
    (h : compactBytes (.object ((name, v) :: members)) = some text) :
    sealTool.treeFromSlice text = some (.object ((name, v) :: members)) := by
  have hother : text ≠ preText := compactBytes_ne_prettyText pre h
  simp only [sealTool, if_neg hother]
  exact Signer.Sample.readCompact_eq_some h

theorem envelopeLaws : EnvelopeLaws sealTool sealEnv where
  value_eq _ := rfl
  envelope_eq _ := rfl
  read_pretty e text h := by
    simp only [sealTool, Option.ite_none_right_eq_some, Option.some.injEq] at h
    obtain ⟨hread, rfl⟩ := h
    rw [← e.toJson_toEnclave, Envelope.read_toJson] at hread
    rw [← e.toJson_toEnclave, Option.some.inj hread]
    simp only [sealTool, if_true]
    rfl
  read_compact _ _ h := sealTool_read h
  base64Decode_encode := base64Decode_encode
  aesGcm := by
    intro key nonce' aad plaintext ciphertext' h key' nonce'' aad'
    simp only [sealTool, Option.ite_none_right_eq_some, Option.some.injEq] at h
    obtain ⟨⟨rfl, rfl, rfl, rfl⟩, rfl⟩ := h
    simp only [sealEnv, true_and]

theorem load_sample : loadPolicyAndSecret sealTool false policyText secretText =
    .ok (policy, secretJson) := by
  have hpolicy : sealTool.treeFromSlice policyText = some policyTree :=
    sealTool_read (by decide +kernel)
  have hsecret : sealTool.treeFromSlice secretText = some secretJson :=
    sealTool_read (by decide +kernel)
  have hread : Policy.read policyTree = some policy := by decide +kernel
  have hround : eqv (stripJsonNulls (value policyTree)) policy.toJson = true := by decide +kernel
  have hvalue : value secretJson = secretJson := rfl
  have hsane : sanityCheckPolicy policy = .ok () := by decide +kernel
  simp only [loadPolicyAndSecret, assertPolicyRoundTrip, checkSanity, hpolicy, hsecret, hread,
    hround, hvalue, hsane, Option.bind_some, Option.map_some, orError, bailIf, bind, Except.bind,
    mapError_ok, Bool.not_true, Bool.false_eq_true, if_false]
  rfl

theorem cmdEnvelope_sample :
    cmdEnvelope sealTool false policyText secretText dek nonce = .ok preText := by
  have hserialized : sealTool.toVec (wrappedJson policy secretJson) = some wrappedText := by
    show compactBytes (wrappedJson policy secretJson) = some wrappedText
    decide +kernel
  have hencrypted : sealTool.aesGcmEncrypt dek nonce [] wrappedText = some ciphertext := by
    simp only [sealTool, and_self, if_true]
  have hpretty : sealTool.toVecPretty (preEnvelope sealTool nonce ciphertext).toJson =
      some preText := by
    have hpre : preEnvelope sealTool nonce ciphertext = pre := by
      simp only [preEnvelope, sealTool, pre]
    rw [hpre, ← pre.toJson_toEnclave]
    simp only [sealTool, Envelope.read_toJson, if_true]
  simp only [cmdEnvelope, bind_eq_ok, orError_eq_ok]
  exact ⟨_, load_sample, wrappedText, hserialized, ciphertext, hencrypted, hpretty⟩

def sealedText : Bytes := envelopeText (Signer.sealedEnvelope wrappedDek nonce ciphertext)

theorem tree_sealedText : sealTool.treeFromSlice sealedText =
    some (Signer.sealedEnvelope wrappedDek nonce ciphertext).toJson :=
  sealTool_read (compactBytes_sealedEnvelope wrappedDek nonce ciphertext)

theorem trim_wrappedDek :
    trim (base64Encode wrappedDek) = base64Encode wrappedDek := by
  refine trim_of_forall ?_
  rw [base64Encode, String.toList_ofList]
  exact forall_mem_base64Chars (by decide) (by decide) wrappedDek

theorem assign_pre : assign "wrapped_dek" (.string (base64Encode wrappedDek))
    (value pre.toJson) = (Signer.sealedEnvelope wrappedDek nonce ciphertext).toJson := by
  rw [assign_wrappedDek]
  simp only [PreEnvelope.toJson, Envelope.toJson, Signer.sealedEnvelope, pre, envelopeVersion]

theorem cmdSeal_sample :
    cmdSeal sealTool preText (base64Encode wrappedDek) = .ok sealedText := by
  have htree : sealTool.treeFromSlice preText = some pre.toJson := by
    simp only [sealTool, if_true]
  have hwritten : sealTool.toVec (assign "wrapped_dek" (.string (base64Encode wrappedDek))
      (value pre.toJson)) = some sealedText := by
    rw [assign_pre]
    simp only [sealTool]
    exact compactBytes_sealedEnvelope wrappedDek nonce ciphertext
  have hdecode : sealTool.base64Decode (base64Encode wrappedDek) = some wrappedDek := by
    simp only [sealTool, base64Decode_encode]
  have hnonempty : base64Encode wrappedDek ≠ "" := by decide +kernel
  simp only [cmdSeal, bind_eq_ok, orError_eq_ok, trim_wrappedDek]
  refine ⟨value pre.toJson, by rw [htree]; rfl, 2, rfl, (), by decide, (),
    bailIf_eq_ok.mpr (by simpa using hnonempty), wrappedDek, hdecode, sealedText, hwritten, _,
    by rw [tree_sealedText]; rfl, (), ?_, rfl⟩
  have hmember : ((value (Signer.sealedEnvelope wrappedDek nonce ciphertext).toJson).get
      "wrapped_dek").bind Json.asStr = some (base64Encode wrappedDek) := rfl
  rw [hmember, Option.bind_some, hdecode]
  decide +kernel

def sealedRequest (blob : Bytes) : SignRequest :=
  { Signer.Sample.request .signBinanceOrder with
    ciphertextBlobBase64 := some (base64Encode blob) }

def sealedIdentity : ResolvedIdentity := Signer.Sample.identity ["binance"] .active

theorem sealEnv_base64Decode (b : Bytes) :
    sealEnv.base64Decode (base64Encode b) = some b := by
  simp only [sealEnv, base64Decode_encode]

theorem reads_sealEnv :
    ReadsEnvelope sealEnv (Signer.sealedEnvelope wrappedDek nonce ciphertext) := by
  refine ⟨sealEnv_base64Decode, ?_, ?_⟩
  · show (sealTool.treeFromSlice sealedText).map value = _
    rw [tree_sealedText]
    rfl
  · show (sealTool.treeFromSlice sealedText).bind Envelope.read = _
    rw [tree_sealedText, Option.bind_some, Envelope.read_toJson]

theorem sealedRequest_blob (blob : Bytes) :
    (sealedRequest blob).ciphertextBlobBase64.bind sealEnv.base64Decode = some blob := by
  simp only [sealedRequest, Option.bind_some, sealEnv_base64Decode]

end PolicyCli.Sample

open PolicyCli.Sample in
/-- The commands of the sample succeed, and the customer's request for Binance does not open what
they made. -/
theorem operator_envelope_never_opens_binance :
    PolicyCli.cmdEnvelope sealTool false policyText secretText dek nonce = .ok preText ∧
    PolicyCli.cmdSeal sealTool preText (base64Encode wrappedDek) = .ok sealedText ∧
    ∃ policy secret,
      PolicyCli.loadPolicyAndSecret sealTool false policyText secretText = .ok (policy, secret) ∧
      ¬OpensTo sealEnv {} (sealedRequest sealedText) sealedIdentity "binance" {}
        policy.toEnclave secret := by
  obtain ⟨policy, secret, hload, hnever⟩ :=
    operator_envelope_never_opens envelopeLaws cmdEnvelope_sample cmdSeal_sample
  exact ⟨cmdEnvelope_sample, cmdSeal_sample, policy, secret, hload,
    hnever {} _ sealedIdentity "binance" {} (sealedRequest_blob sealedText)⟩

open PolicyCli.Sample in
/-- A policy and a key are accepted, the data key is wrapped for the customer on binance, the
envelope is sealed, and the customer's request for binance fails to open it. -/
theorem operator_envelope_fails_to_open :
    PolicyCli.cmdEnvelope sealTool false policyText secretText dek nonce = .ok preText ∧
    (∀ creds, sealEnv.kmsDecrypt creds wrappedDek (sealedIdentity.encryptionContext "binance") =
      .ok dek) ∧
    PolicyCli.cmdSeal sealTool preText (base64Encode wrappedDek) = .ok sealedText ∧
    (sealedRequest sealedText).ciphertextBlobBase64.bind sealEnv.base64Decode = some sealedText ∧
    ((loadSecretFor sealEnv {} (sealedRequest sealedText) sealedIdentity "binance").run {}).result =
      .error .internal := by
  have hkms : ∀ creds, sealEnv.kmsDecrypt creds wrappedDek
      (sealedIdentity.encryptionContext "binance") = .ok dek := by
    intro creds
    simp only [sealEnv, ResolvedIdentity.encryptionContext, sealedIdentity, Signer.Sample.identity,
      Signer.Sample.customer, and_self, if_true]
  refine ⟨cmdEnvelope_sample, hkms, cmdSeal_sample, sealedRequest_blob sealedText, ?_⟩
  obtain ⟨policy, secret, plaintext, ciphertext, -, hsealed⟩ :=
    PolicyCli.sealedAs_nil envelopeLaws cmdEnvelope_sample cmdSeal_sample
  rw [PolicyCli.Sample.trim_wrappedDek] at hsealed
  have hopen : ∀ creds, openUncached sealEnv creds sealedText
      (sealedIdentity.encryptionContext "binance")
      (sealedIdentity.sealedAad "binance" keyVersion) = .error .internal := by
    intro creds
    rw [hsealed.openUncached_eq envelopeLaws _ List.length_replicate List.length_replicate
      (sealEnv_base64Decode wrappedDek) (hkms creds),
      if_neg (sealedIdentity.sealedAad_ne_nil "binance" keyVersion)]
  rw [reads_sealEnv.loadSecretFor_eq rfl rfl rfl, Proc.run_ensure_bind, if_pos (by decide +kernel),
    result_openEnvelope fun wrapped dek' hget => by
      simp [DekCache.get, DekCache.enabled, sealEnv, Signer.Sample.env] at hget]
  exact hopen _

end Signer
