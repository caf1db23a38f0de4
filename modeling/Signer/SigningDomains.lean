import Signer.CanonicalForm
import Signer.HeartbeatRuns

/-!
# One key, several kinds of documents

The key that signs attested data signs receipts and heartbeats as well, and the same digest-signing
function serves EIP-712 typed data. What keeps the signatures apart are the bytes that are hashed:
each use puts its own tag in front, no tag starts another, and behind the tag stand all fields of
the document.
-/

namespace Signer

/-! ### The hashed bytes -/

abbrev Word := {b : Bytes // b.length = 32}

inductive DigestUse where
  | attestedData (canonical : Bytes)
  | receipt (canonical : Bytes)
  | heartbeat (canonical : Bytes)
  | eip712 (domainSeparator structHash : Word)

inductive SigningDomain where
  | attestedData | receipt | heartbeat | eip712
  deriving DecidableEq, Repr

def SigningDomain.tag : SigningDomain → Bytes
  | attestedData => Text.bytes "usenami-attested-data-v1"
  | receipt => Text.bytes "usenami-decision-receipt-v1"
  | heartbeat => Text.bytes "usenami-receipt-heartbeat-v1"
  | eip712 => [0x19, 0x01]

namespace DigestUse

def digest (env : Env) : DigestUse → Bytes
  | attestedData canonical => attestedDataDigestV1 env canonical
  | receipt canonical => receiptDigestV1 env canonical
  | heartbeat canonical => heartbeatDigestV1 env canonical
  | eip712 domainSeparator structHash => eip712Digest env domainSeparator.1 structHash.1

def domain : DigestUse → SigningDomain
  | attestedData _ => .attestedData
  | receipt _ => .receipt
  | heartbeat _ => .heartbeat
  | eip712 _ _ => .eip712

def payload : DigestUse → Bytes
  | attestedData canonical => canonical
  | receipt canonical => canonical
  | heartbeat canonical => canonical
  | eip712 domainSeparator structHash => domainSeparator.1 ++ structHash.1

def hashed (use : DigestUse) : Bytes := use.domain.tag ++ use.payload

theorem digest_eq (env : Env) (use : DigestUse) : use.digest env = env.keccak256 use.hashed := by
  cases use <;> rfl

theorem eq_of_payload_eq {use use' : DigestUse} (hdomain : use.domain = use'.domain)
    (hpayload : use.payload = use'.payload) : use = use' := by
  cases use <;> cases use' <;> cases hdomain
  case eip712 domain struct domain' struct' =>
    -- both halves have 32 bytes, so they are cut at the same place
    obtain ⟨hdomain, hstruct⟩ :=
      List.append_inj hpayload (domain.property.trans domain'.property.symm)
    rw [Subtype.ext hdomain, Subtype.ext hstruct]
  all_goals exact congrArg _ hpayload

end DigestUse

theorem SigningDomain.tags_apart {d d' : SigningDomain} (h : d ≠ d') : ¬d.tag <+: d'.tag := by
  revert h
  cases d <;> cases d' <;> decide +kernel

theorem append_ne_append_of_apart {α : Type} {x y : List α} (hxy : ¬x <+: y) (hyx : ¬y <+: x)
    (a b : List α) : x ++ a ≠ y ++ b := by
  intro h
  have hy : y <+: x ++ a := h ▸ List.prefix_append y b
  exact (List.prefix_or_prefix_of_prefix (List.prefix_append x a) hy).elim hxy hyx

theorem DigestUse.hashed_injective : Function.Injective DigestUse.hashed := by
  intro use use' h
  have hdomain : use.domain = use'.domain := by
    by_contra hne
    exact append_ne_append_of_apart (SigningDomain.tags_apart hne)
      (SigningDomain.tags_apart (Ne.symm hne)) _ _ h
  refine DigestUse.eq_of_payload_eq hdomain ?_
  rw [hashed, hashed, hdomain] at h
  exact List.append_cancel_left h

/-! ### Receipts and heartbeats -/

theorem eq_of_perm_of_names_eq {α : Type} {ms ns : List (String × α)} (hperm : ms.Perm ns)
    (hnames : ms.map Prod.fst = ns.map Prod.fst) (hnodup : (ms.map Prod.fst).Nodup) : ms = ns := by
  induction ms generalizing ns with
  | nil => exact (List.nil_perm.mp hperm).symm
  | cons m ms ih =>
    cases ns with
    | nil => cases hnames
    | cons n ns =>
      obtain ⟨hname, hrest⟩ := List.cons_eq_cons.mp hnames
      obtain ⟨hfresh, hnodup⟩ := List.nodup_cons.mp hnodup
      -- the first value is not behind the first name of the other list
      have hhead : m = n := by
        rcases List.mem_cons.mp (hperm.mem_iff.mp List.mem_cons_self) with heq | hmem
        · exact heq
        · exact absurd (hrest ▸ List.mem_map_of_mem hmem) hfresh
      subst hhead
      rw [ih (List.perm_cons m |>.mp hperm) hrest hnodup]

def stringObject (members : List (String × String)) : Json :=
  .object (members.map fun m => (m.1, .string m.2))

theorem sorted_stringObject (members : List (String × String)) : (stringObject members).sorted =
    .object ((members.map fun m => (m.1, Json.string m.2)).insertionSort byName) := by
  have hstrings : Json.sortedMembers (members.map fun m => (m.1, Json.string m.2)) =
      members.map fun m => (m.1, Json.string m.2) := by
    rw [Json.sortedMembers_eq, List.map_map]
    rfl
  rw [stringObject, Json.sorted, hstrings]

variable {b : Bytes} {r : DecisionReceipt} {u : DigestUse}

theorem canonicalV1_stringObject_inj {ms ns : List (String × String)}
    (hnames : ms.map Prod.fst = ns.map Prod.fst) (hnodup : (ms.map Prod.fst).Nodup)
    (hms : canonicalV1 (stringObject ms) = some b) (hns : canonicalV1 (stringObject ns) = some b) :
    ms = ns := by
  obtain ⟨text, -, rfl⟩ := Option.map_eq_some_iff.mp hms
  have hsorted := (canonicalV1_eq_iff_sorted_eq hms).mp hns
  rw [sorted_stringObject, sorted_stringObject, Json.object.injEq] at hsorted
  have hperm : (ms.map fun m => (m.1, Json.string m.2)).Perm
      (ns.map fun m => (m.1, Json.string m.2)) :=
    (List.perm_insertionSort byName _).symm.trans
      (hsorted ▸ List.perm_insertionSort byName _)
  have hinj : Function.Injective fun m : String × String => (m.1, Json.string m.2) := by
    rintro ⟨n, v⟩ ⟨n', v'⟩ h
    simpa using h
  exact eq_of_perm_of_names_eq ((List.map_perm_map_iff hinj).mp hperm) hnames hnodup

def DecisionReceipt.unsigned (r : DecisionReceipt) : DecisionReceipt :=
  { r with signature := .blank }

def ReceiptHeartbeat.unsigned (h : ReceiptHeartbeat) : ReceiptHeartbeat :=
  { h with signature := .blank }

def DecisionReceipt.members (r : DecisionReceipt) : List (String × String) :=
  [("v", r.v), ("decision", r.decision), ("reason_code", r.reasonCode),
    ("customer_id", r.customerId), ("action", r.action), ("request_hash", r.requestHash),
    ("intent_sig_hash", r.intentSigHash), ("policy_hash", r.policyHash),
    ("supplied_ts_ms", r.suppliedTsMs), ("boot_id", r.bootId), ("seq", r.seq)]

def ReceiptHeartbeat.members (h : ReceiptHeartbeat) : List (String × String) :=
  [("v", h.v), ("boot_id", h.bootId), ("customer_id", h.customerId), ("seq_next", h.seqNext),
    ("client_nonce", h.clientNonce), ("registry_version", h.registryVersion),
    ("entry_hash", h.entryHash)]

theorem signingPayload_eq (r : DecisionReceipt) :
    signingPayload r = canonicalV1 (stringObject r.members) := rfl

theorem heartbeatSigningPayload_eq (h : ReceiptHeartbeat) :
    heartbeatSigningPayload h = canonicalV1 (stringObject h.members) := rfl

theorem DecisionReceipt.nodup_members (r : DecisionReceipt) : (r.members.map Prod.fst).Nodup := by
  have hnames : r.members.map Prod.fst = ["v", "decision", "reason_code", "customer_id", "action",
    "request_hash", "intent_sig_hash", "policy_hash", "supplied_ts_ms", "boot_id", "seq"] := rfl
  rw [hnames]
  decide

theorem ReceiptHeartbeat.nodup_members (h : ReceiptHeartbeat) :
    (h.members.map Prod.fst).Nodup := by
  have hnames : h.members.map Prod.fst = ["v", "boot_id", "customer_id", "seq_next",
    "client_nonce", "registry_version", "entry_hash"] := rfl
  rw [hnames]
  decide

theorem DecisionReceipt.unsigned_eq_of_members {r' : DecisionReceipt} (h : r.members = r'.members) :
    r.unsigned = r'.unsigned := by
  simp only [members, List.cons.injEq, Prod.mk.injEq, true_and, and_true] at h
  obtain ⟨hv, hdecision, hreason, hcustomer, haction, hrequest, hintent, hpolicy, hts, hboot,
    hseq⟩ := h
  simp only [unsigned, hv, hdecision, hreason, hcustomer, haction, hrequest, hintent, hpolicy, hts,
    hboot, hseq]

theorem ReceiptHeartbeat.unsigned_eq_of_members {h h' : ReceiptHeartbeat}
    (hmembers : h.members = h'.members) : h.unsigned = h'.unsigned := by
  simp only [members, List.cons.injEq, Prod.mk.injEq, true_and, and_true] at hmembers
  obtain ⟨hv, hboot, hcustomer, hseq, hnonce, hversion, hentry⟩ := hmembers
  simp only [unsigned, hv, hboot, hcustomer, hseq, hnonce, hversion, hentry]

theorem signingPayload_eq_iff {r' : DecisionReceipt} (h : signingPayload r = some b) :
    signingPayload r' = some b ↔ r.unsigned = r'.unsigned := by
  constructor
  · intro h'
    rw [signingPayload_eq] at h h'
    exact DecisionReceipt.unsigned_eq_of_members
      (canonicalV1_stringObject_inj rfl r.nodup_members h h')
  · intro hsame
    have hunsigned : ∀ r, signingPayload (DecisionReceipt.unsigned r) = signingPayload r :=
      fun _ => rfl
    rw [← hunsigned, ← hsame, hunsigned, h]

theorem heartbeatSigningPayload_eq_iff {h h' : ReceiptHeartbeat}
    (hb : heartbeatSigningPayload h = some b) :
    heartbeatSigningPayload h' = some b ↔ h.unsigned = h'.unsigned := by
  constructor
  · intro hb'
    rw [heartbeatSigningPayload_eq] at hb hb'
    exact ReceiptHeartbeat.unsigned_eq_of_members
      (canonicalV1_stringObject_inj rfl h.nodup_members hb hb')
  · intro hsame
    have hunsigned : ∀ h, heartbeatSigningPayload (ReceiptHeartbeat.unsigned h) =
      heartbeatSigningPayload h := fun _ => rfl
    rw [← hunsigned, ← hsame, hunsigned, hb]

/-! ### Signatures -/

inductive SignedDocument where
  | attestedData (value : Json)
  | receipt (r : DecisionReceipt)
  | heartbeat (h : ReceiptHeartbeat)
  | typedData (domainSeparator structHash : Word)

namespace SignedDocument

def sign (env : Env) (key : Bytes) : SignedDocument → Option HlSignature
  | attestedData value => signAttestedData env key value
  | receipt r => env.receiptSigner.receipt key r
  | heartbeat h => env.receiptSigner.heartbeat key h
  | typedData domainSeparator structHash =>
    signEip712Digest env key (eip712Digest env domainSeparator.1 structHash.1)

def use : SignedDocument → Option DigestUse
  | attestedData value => (canonicalV1 value).map .attestedData
  | receipt r => (signingPayload r).map .receipt
  | heartbeat h => (heartbeatSigningPayload h).map .heartbeat
  | typedData domainSeparator structHash => some (.eip712 domainSeparator structHash)

def content : SignedDocument → SignedDocument
  | attestedData value => attestedData value.sorted
  | receipt r => receipt r.unsigned
  | heartbeat h => heartbeat h.unsigned
  | typedData domainSeparator structHash => typedData domainSeparator structHash

theorem sign_eq (env : Env) (key : Bytes) (doc : SignedDocument) :
    doc.sign env key = doc.use.bind fun use => signEip712Digest env key (use.digest env) := by
  cases doc with
  | attestedData value =>
    simp only [sign, use, signAttestedData]
    cases canonicalV1 value <;> rfl
  | receipt r =>
    simp only [sign, use, Env.receiptSigner]
    cases signingPayload r <;> rfl
  | heartbeat h =>
    simp only [sign, use, Env.receiptSigner]
    cases heartbeatSigningPayload h <;> rfl
  | typedData domainSeparator structHash => rfl

theorem use_attestedData {value : Json} :
    (attestedData value).use = some u ↔ ∃ b, canonicalV1 value = some b ∧ .attestedData b = u :=
  Option.map_eq_some_iff

theorem use_receipt :
    (receipt r).use = some u ↔ ∃ b, signingPayload r = some b ∧ .receipt b = u := by
  rw [use, Option.map_eq_some_iff]

theorem use_heartbeat {h : ReceiptHeartbeat} :
    (heartbeat h).use = some u ↔ ∃ b, heartbeatSigningPayload h = some b ∧ .heartbeat b = u := by
  rw [use, Option.map_eq_some_iff]

theorem content_eq_of_use_eq {doc doc' : SignedDocument} (h : doc.use = some u)
    (h' : doc'.use = some u) : doc.content = doc'.content := by
  -- the digest names the kind of both documents
  cases doc with
  | attestedData value =>
    obtain ⟨b, hb, rfl⟩ := use_attestedData.mp h
    cases doc' with
    | attestedData value' =>
      obtain ⟨b', hb', hsame⟩ := use_attestedData.mp h'
      obtain rfl : b' = b := DigestUse.attestedData.inj hsame
      obtain ⟨text, -, rfl⟩ := Option.map_eq_some_iff.mp hb
      exact congrArg attestedData ((canonicalV1_eq_iff_sorted_eq hb).mp hb')
    | _ => simp [use] at h'
  | receipt r =>
    obtain ⟨b, hb, rfl⟩ := use_receipt.mp h
    cases doc' with
    | receipt r' =>
      obtain ⟨b', hb', hsame⟩ := use_receipt.mp h'
      obtain rfl : b' = b := DigestUse.receipt.inj hsame
      exact congrArg receipt ((signingPayload_eq_iff hb).mp hb')
    | _ => simp [use] at h'
  | heartbeat beat =>
    obtain ⟨b, hb, rfl⟩ := use_heartbeat.mp h
    cases doc' with
    | heartbeat beat' =>
      obtain ⟨b', hb', hsame⟩ := use_heartbeat.mp h'
      obtain rfl : b' = b := DigestUse.heartbeat.inj hsame
      exact congrArg heartbeat ((heartbeatSigningPayload_eq_iff hb).mp hb')
    | _ => simp [use] at h'
  | typedData domainSeparator structHash =>
    cases h
    cases doc' with
    | typedData domainSeparator' structHash' =>
      obtain ⟨rfl, rfl⟩ : domainSeparator' = domainSeparator ∧ structHash' = structHash := by
        simpa [use] using h'
      rfl
    | _ => simp [use] at h'

end SignedDocument

structure SignatureCheck (env : Env) (key : Bytes) where
  verifies : Bytes → HlSignature → Prop
  complete : ∀ {digest sig}, signEip712Digest env key digest = some sig → verifies digest sig
  binding : ∀ {digest digest' sig}, verifies digest sig → verifies digest' sig → digest = digest'

def SignatureCheck.Valid {env : Env} {key : Bytes} (check : SignatureCheck env key)
    (doc : SignedDocument) (sig : HlSignature) : Prop :=
  ∃ use, doc.use = some use ∧ check.verifies (use.digest env) sig

/-- The four digest functions hash different bytes, whatever they are applied to, and the bytes of a
receipt or a heartbeat determine every field but the signature. So, if Keccak has no collisions, a
signature over one document is valid for no document that says anything else. -/
theorem resident_key_signatures_separate :
    (∀ env use, DigestUse.digest env use = env.keccak256 use.hashed) ∧
    Function.Injective DigestUse.hashed ∧
    (∀ r r' b, signingPayload r = some b →
      (signingPayload r' = some b ↔ r.unsigned = r'.unsigned)) ∧
    (∀ h h' b, heartbeatSigningPayload h = some b →
      (heartbeatSigningPayload h' = some b ↔ h.unsigned = h'.unsigned)) ∧
    ∀ env key, Function.Injective env.keccak256 → ∀ check : SignatureCheck env key,
      ∀ (doc doc' : SignedDocument) sig, doc.sign env key = some sig → check.Valid doc' sig →
        doc.content = doc'.content := by
  refine ⟨DigestUse.digest_eq, DigestUse.hashed_injective, fun _ _ _ => signingPayload_eq_iff,
    fun _ _ _ => heartbeatSigningPayload_eq_iff, ?_⟩
  rintro env key hkeccak check doc doc' sig hsign ⟨use', huse', hvalid⟩
  rw [SignedDocument.sign_eq] at hsign
  obtain ⟨use, huse, hsig⟩ := Option.bind_eq_some_iff.mp hsign
  have hdigest : use.digest env = use'.digest env := check.binding (check.complete hsig) hvalid
  rw [DigestUse.digest_eq, DigestUse.digest_eq] at hdigest
  obtain rfl : use = use' := DigestUse.hashed_injective (hkeccak hdigest)
  exact SignedDocument.content_eq_of_use_eq huse huse'

namespace Sample

def residentEnv : Env :=
  { heartbeatEnv with
    keccak256 := digests []
    secp256k1Sign := fun _ digest => some (digest, 0) }

def residentHeartbeat : ReceiptHeartbeat :=
  heartbeatDraft residentEnv customer "nonce-1" entryHash1 0 2

def residentCheck : SignatureCheck residentEnv heartbeatKey where
  verifies digest sig := signEip712Digest residentEnv heartbeatKey digest = some sig
  complete h := h
  binding {digest digest' sig} h h' := by
    obtain ⟨hr, hs⟩ := HlSignature.mk.inj (Option.some.inj (h.trans h'.symm))
    have hinj : Function.Injective Text.hexEncode := fun a b hsame =>
      Option.some.inj (by rw [← Text.hexDecode_hexEncode, hsame, Text.hexDecode_hexEncode])
    have htake : digest.take 32 = digest'.take 32 := hinj (by simpa using hr)
    have hdrop : digest.drop 32 = digest'.drop 32 := hinj (by simpa using hs.1)
    rw [← List.take_append_drop 32 digest, htake, hdrop, List.take_append_drop]

end Sample

open Sample in
/-- The signature of the sample heartbeat is valid for no receipt. -/
theorem resident_key_signatures_separate_heartbeat :
    ∃ sig, (SignedDocument.heartbeat residentHeartbeat).sign residentEnv heartbeatKey = some sig ∧
      ∀ r, ¬residentCheck.Valid (.receipt r) sig := by
  obtain ⟨sig, hsign⟩ : ∃ sig, (SignedDocument.heartbeat residentHeartbeat).sign residentEnv
      heartbeatKey = some sig := Option.isSome_iff_exists.mp (by decide +kernel)
  have hkeccak : Function.Injective residentEnv.keccak256 :=
    @digests_injective [] (by simp) (by simp)
  obtain ⟨-, -, -, -, hseparate⟩ := resident_key_signatures_separate
  refine ⟨sig, hsign, fun r hvalid => ?_⟩
  cases hseparate residentEnv heartbeatKey hkeccak residentCheck _ _ _ hsign hvalid

end Signer
