import GovAI.Audit.Event
import GovAI.Library.TransitionSystem
import Mathlib.Logic.Function.Basic

/-!
# The production KMS adapter

`AwsKms` keeps the decrypted master seed in a buffer that it hands out by reference across an
`await`, and overwrites with zeros when the cache has expired.  The event loop is a transition system
whose steps run one continuation each; the buffers are mutable cells of an explicit heap.
-/

namespace GovAI

open Function

/-! ## Calls -/

/-- `KmsPurpose`. -/
inductive KmsPurpose where
  | auditHmac
  | payloadDek
  | providerCredential
  | jwtRefresh
  | conversationContent
  | conversationContentIntegrity
deriving DecidableEq

/-- The text of a purpose. -/
def KmsPurpose.text : KmsPurpose → String
  | auditHmac => "audit_hmac"
  | payloadDek => "payload_dek"
  | providerCredential => "provider_credential"
  | jwtRefresh => "jwt_refresh"
  | conversationContent => "conversation_content"
  | conversationContentIntegrity => "conversation_content_integrity"

/-- `KmsEnvelopePurpose`. -/
inductive KmsEnvelopePurpose where
  | payloadDek
  | conversationContent
deriving DecidableEq

/-- An envelope purpose as a purpose. -/
def KmsEnvelopePurpose.toPurpose : KmsEnvelopePurpose → KmsPurpose
  | payloadDek => .payloadDek
  | conversationContent => .conversationContent

/-- The argument of `deriveKey`. -/
structure KeyRequest where
  purpose : KmsPurpose
  orgId : String
  keyId : String
  version : ℤ
  length : ℕ := 32

/-- The calls of the adapter, with the random bytes that `envelopeEncrypt` draws. -/
inductive KmsCall where
  | deriveKey (request : KeyRequest)
  | hmacSha256 (purpose : KmsPurpose) (orgId keyId : String) (version : ℤ) (message : Bytes)
  | envelopeEncrypt (orgId keyId : String) (version : ℤ) (plaintext : Bytes)
      (purpose : Option KmsEnvelopePurpose) (dek ivPayload ivDek : Bytes)
  | envelopeDecrypt (orgId keyId : String) (version : ℤ) (ciphertext dekWrapped : Bytes)
      (purpose : Option KmsEnvelopePurpose)

/-- What the calls return. -/
inductive KmsResult where
  | bytes (b : Bytes)
  | envelope (ciphertext dekWrapped : Bytes)
deriving DecidableEq

/-- The primitives of `node:crypto`. -/
structure NodeCrypto where
  hkdfSync (seed salt info : Bytes) (length : ℕ) : Except String Bytes
  createHmac (key message : Bytes) : Bytes
  /-- Ciphertext and tag. -/
  aes256GcmEncrypt (key iv plaintext : Bytes) : Bytes × Bytes
  aes256GcmDecrypt (key iv tag ciphertext : Bytes) : Option Bytes

/-- `AWS_KMS_HKDF_SALT`. -/
def awsKmsHkdfSalt : String := "govai-aws-kms-v1"

/-- The `MAGIC` bytes. -/
def magic : Bytes := utf8Bytes "GVK1".toList

/-- `IV_LEN`. -/
def ivLen : ℕ := 12

/-- `TAG_LEN`. -/
def tagLen : ℕ := 16

/-- `WRAPPED_DEK_LEN`. -/
def wrappedDekLen : ℕ := 32

/-- `DEK_LAYER_LEN`. -/
def dekLayerLen : ℕ := magic.length + ivLen + tagLen + wrappedDekLen

/-- `PAYLOAD_HEADER_LEN`. -/
def payloadHeaderLen : ℕ := ivLen + tagLen

/-- The HKDF info string of a request. -/
def KeyRequest.info (r : KeyRequest) : Bytes :=
  utf8Bytes s!"govai|{r.purpose.text}|{r.orgId}|{r.keyId}|v{r.version}".toList

/-- The key derived from a seed. -/
def KeyRequest.derive (crypto : NodeCrypto) (r : KeyRequest) (seed : Bytes) : Except String Bytes :=
  crypto.hkdfSync seed (utf8Bytes awsKmsHkdfSalt.toList) r.info r.length

namespace KmsCall

/-- The request a call passes to `deriveKey`. -/
def keyRequest : KmsCall → KeyRequest
  | deriveKey request => request
  | hmacSha256 purpose orgId keyId version _ => { purpose, orgId, keyId, version }
  | envelopeEncrypt orgId keyId version _ purpose _ _ _ =>
      { purpose := (purpose.getD .payloadDek).toPurpose, orgId, keyId, version }
  | envelopeDecrypt orgId keyId version _ _ purpose =>
      { purpose := (purpose.getD .payloadDek).toPurpose, orgId, keyId, version }

/-- The checks a call makes before it asks for a key. -/
def validate : KmsCall → Except String Unit
  | envelopeDecrypt _ _ _ ciphertext dekWrapped _ =>
      if dekWrapped.take magic.length ≠ magic then .error "envelope_bad_magic_or_version"
      else if dekWrapped.length ≠ dekLayerLen then .error "envelope_malformed_dek_layer"
      else if ciphertext.length < payloadHeaderLen then .error "envelope_malformed_payload"
      else .ok ()
  | _ => .ok ()

/-- `envelopeEncrypt` with its wrapping key. -/
def encryptUnder (crypto : NodeCrypto) (kek plaintext dek ivPayload ivDek : Bytes) : KmsResult :=
  let (payloadCt, tagPayload) := crypto.aes256GcmEncrypt dek ivPayload plaintext
  let (wrappedDek, tagDek) := crypto.aes256GcmEncrypt kek ivDek dek
  .envelope (ivPayload ++ tagPayload ++ payloadCt) (magic ++ ivDek ++ tagDek ++ wrappedDek)

/-- `envelopeDecrypt` with its wrapping key. -/
def decryptUnder (crypto : NodeCrypto) (kek ciphertext dekWrapped : Bytes) :
    Except String KmsResult :=
  let layer := dekWrapped.drop magic.length
  let plain := (crypto.aes256GcmDecrypt kek (layer.take ivLen) ((layer.drop ivLen).take tagLen)
    (layer.drop (ivLen + tagLen))).bind fun dek =>
      crypto.aes256GcmDecrypt dek (ciphertext.take ivLen) ((ciphertext.drop ivLen).take tagLen)
        (ciphertext.drop payloadHeaderLen)
  match plain with
  | some b => .ok (.bytes b)
  | none => .error "envelope_decrypt_failed"

/-- The result of a call, once its key is derived. -/
def result (crypto : NodeCrypto) (key : Bytes) : KmsCall → Except String KmsResult
  | deriveKey _ => .ok (.bytes key)
  | hmacSha256 _ _ _ _ message => .ok (.bytes (crypto.createHmac key message))
  | envelopeEncrypt _ _ _ plaintext _ dek ivPayload ivDek =>
      .ok (encryptUnder crypto key plaintext dek ivPayload ivDek)
  | envelopeDecrypt _ _ _ ciphertext dekWrapped _ => decryptUnder crypto key ciphertext dekWrapped

end KmsCall

/-! ## The event loop -/

/-- Where a call is. -/
inductive KmsCallState where
  /-- `getMasterSeed` awaits the answer of `client.decrypt`; `now` is when it began. -/
  | decrypting (call : KmsCall) (now : ℤ)
  /-- `getMasterSeed` has returned a buffer; `deriveKey` has not resumed yet. -/
  | seedReady (call : KmsCall) (buffer : ℕ)
  /-- `deriveKey` has returned the key it derived from the bytes `seed`. -/
  | keyReady (call : KmsCall) (seed key : Bytes)
  | done (call : KmsCall) (seed : Bytes) (result : Except String KmsResult)
  | failed (call : KmsCall) (error : String)

/-- The state of an adapter and of the calls made to it. -/
structure KmsState where
  /-- `Date.now()`. -/
  clock : ℤ
  /-- The contents of the buffers. -/
  heap : ℕ → Bytes
  allocated : ℕ
  seedCache : Option ℕ
  seedExpiresAtMs : ℤ
  calls : ℕ → Option KmsCallState

/-- What runs next. -/
inductive KmsAction where
  | tick (now : ℤ)
  | start (id : ℕ) (call : KmsCall)
  /-- `client.decrypt` rejects, or answers with a plaintext. -/
  | answer (id : ℕ) (out : Except Unit (Option Bytes))
  | resume (id : ℕ)
  | finish (id : ℕ)

namespace KmsState

/-- `clearSeedCache`. -/
def clearSeedCache (s : KmsState) : KmsState :=
  match s.seedCache with
  | some buffer =>
      { s with
        heap := update s.heap buffer (List.replicate (s.heap buffer).length 0)
        seedCache := none
        seedExpiresAtMs := 0 }
  | none => { s with seedExpiresAtMs := 0 }

/-- The state of one call is replaced. -/
def setCall (s : KmsState) (id : ℕ) (c : KmsCallState) : KmsState :=
  { s with calls := update s.calls id (some c) }

/-- The buffer that `getMasterSeed` returns without a call of `client.decrypt`. -/
def cachedSeed (s : KmsState) : Option ℕ :=
  s.seedCache.filter fun _ => s.clock < s.seedExpiresAtMs

/-- `getMasterSeed` up to its first `await`. -/
def getMasterSeed (s : KmsState) (id : ℕ) (call : KmsCall) : KmsState :=
  match s.cachedSeed with
  | some buffer => s.setCall id (.seedReady call buffer)
  | none => s.clearSeedCache.setCall id (.decrypting call s.clock)

/-- A call runs up to its first `await`. -/
def start (s : KmsState) (id : ℕ) (call : KmsCall) : KmsState :=
  match call.validate with
  | .error e => s.setCall id (.failed call e)
  | .ok () => s.getMasterSeed id call

/-- The plaintext is copied into an owned buffer, which becomes the cache. -/
def storeSeed (s : KmsState) (ttlMs now : ℤ) (plaintext : Bytes) : KmsState :=
  { s with
    heap := update s.heap s.allocated plaintext
    allocated := s.allocated + 1
    seedCache := some s.allocated
    seedExpiresAtMs := now + ttlMs }

/-- `getMasterSeed` after its `await`. -/
def decryptAnswered (s : KmsState) (ttlMs : ℤ) (id : ℕ) (call : KmsCall) (now : ℤ) :
    Except Unit (Option Bytes) → KmsState
  | .error () => s.setCall id (.failed call "master_seed_decrypt_failed")
  | .ok none | .ok (some []) => s.setCall id (.failed call "master_seed_decrypt_empty")
  | .ok (some (b :: plaintext)) =>
      (s.storeSeed ttlMs now (b :: plaintext)).setCall id (.seedReady call s.allocated)

/-- `deriveKey` after its `await`: only now are the bytes of the seed read. -/
def deriveKeyResumed (crypto : NodeCrypto) (s : KmsState) (id : ℕ) (call : KmsCall) (buffer : ℕ) :
    KmsState :=
  match call.keyRequest.derive crypto (s.heap buffer) with
  | .ok key => s.setCall id (.keyReady call (s.heap buffer) key)
  | .error e => s.setCall id (.failed call e)

/-- One step of the event loop. -/
inductive Step (crypto : NodeCrypto) (ttlMs : ℤ) (s : KmsState) : KmsAction → KmsState → Prop
  | tick {now : ℤ} (h : s.clock ≤ now) : Step crypto ttlMs s (.tick now) { s with clock := now }
  | start {id : ℕ} {call : KmsCall} (h : s.calls id = none) :
      Step crypto ttlMs s (.start id call) (s.start id call)
  | answer {id : ℕ} {call : KmsCall} {now : ℤ} {out : Except Unit (Option Bytes)}
      (h : s.calls id = some (.decrypting call now)) :
      Step crypto ttlMs s (.answer id out) (s.decryptAnswered ttlMs id call now out)
  | resume {id : ℕ} {call : KmsCall} {buffer : ℕ} (h : s.calls id = some (.seedReady call buffer)) :
      Step crypto ttlMs s (.resume id) (s.deriveKeyResumed crypto id call buffer)
  | finish {id : ℕ} {call : KmsCall} {seed key : Bytes}
      (h : s.calls id = some (.keyReady call seed key)) :
      Step crypto ttlMs s (.finish id) (s.setCall id (.done call seed (call.result crypto key)))

end KmsState

/-- The client returns the master seed, if it returns anything. -/
def KmsAction.FromClient (masterSeed : Bytes) : KmsAction → Prop
  | .answer _ (.ok (some plaintext)) => plaintext = [] ∨ plaintext = masterSeed
  | _ => True

/-- All runs of an adapter. -/
def kmsSystem (crypto : NodeCrypto) (ttlSeconds : ℕ) (masterSeed : Bytes) :
    TransitionSystem KmsState KmsAction where
  init s := 0 < ttlSeconds ∧ s.seedCache = none ∧ s.seedExpiresAtMs = 0 ∧ ∀ id, s.calls id = none
  step s a s' := a.FromClient masterSeed ∧ s.Step crypto (1000 * ttlSeconds) a s'

end GovAI
