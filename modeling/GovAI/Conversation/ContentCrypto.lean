import GovAI.Kms.Envelope
import GovAI.Paging.ConversationCursor

/-!
# The encryption of titles and contents

The codec of the conversation store: `ai-conversations/crypto.ts`.  A row holds its encrypted group
and a keyed digest of the plaintext.  The digest is written and never read: a row that gets the group
of another row of the organisation is read as that row (`swapped_group_detected_iff`).
-/

namespace GovAI

/-! ## The KMS -/

/-- What `envelopeEncrypt` returns. -/
structure KmsEnvelope where
  ciphertext : Bytes
  dekWrapped : Bytes
deriving DecidableEq

/-- The interface `Kms`; `δ` is what `randomBytes` draws for an envelope. -/
structure EnvelopeKms (δ : Type) where
  hmacSha256 (purpose : KmsPurpose) (orgId keyId : String) (version : ℤ) (message : Bytes) :
    Except KmsFailure Bytes
  envelopeEncrypt (draw : δ) (orgId keyId : String) (version : ℤ) (plaintext : Bytes)
    (purpose : KmsEnvelopePurpose) : Except KmsFailure KmsEnvelope
  envelopeDecrypt (orgId keyId : String) (version : ℤ) (ciphertext dekWrapped : Bytes)
    (purpose : KmsEnvelopePurpose) : Except KmsFailure Bytes

/-- An envelope is read back under the context that it was made in. -/
def EnvelopeKms.RoundTrip {δ : Type} (kms : EnvelopeKms δ) : Prop :=
  ∀ draw orgId keyId version plaintext purpose envelope,
    kms.envelopeEncrypt draw orgId keyId version plaintext purpose = .ok envelope →
      kms.envelopeDecrypt orgId keyId version envelope.ciphertext envelope.dekWrapped purpose =
        .ok plaintext

/-- The draws of `AwsKms.envelopeEncrypt`. -/
structure EnvelopeDraw where
  dek : Bytes
  ivPayload : Bytes
  ivDek : Bytes
  dek_length : dek.length = wrappedDekLen
  ivPayload_length : ivPayload.length = ivLen
  ivDek_length : ivDek.length = ivLen

/-- The bytes of a result. -/
def KmsResult.toBytes : KmsResult → Bytes
  | .bytes b => b
  | .envelope _ _ => []

/-- The blobs of a result. -/
def KmsResult.toEnvelope : KmsResult → KmsEnvelope
  | .bytes _ => ⟨[], []⟩
  | .envelope ciphertext dekWrapped => ⟨ciphertext, dekWrapped⟩

/-- The production adapter. -/
def awsKms (crypto : NodeCrypto) (masterSeed : Except String Bytes) : EnvelopeKms EnvelopeDraw where
  hmacSha256 purpose orgId keyId version message :=
    ((KmsCall.hmacSha256 purpose orgId keyId version message).run crypto masterSeed).map
      KmsResult.toBytes
  envelopeEncrypt draw orgId keyId version plaintext purpose :=
    ((KmsCall.envelopeEncrypt orgId keyId version plaintext (some purpose) draw.dek draw.ivPayload
      draw.ivDek).run crypto masterSeed).map KmsResult.toEnvelope
  envelopeDecrypt orgId keyId version ciphertext dekWrapped purpose :=
    ((KmsCall.envelopeDecrypt orgId keyId version ciphertext dekWrapped (some purpose)).run crypto
      masterSeed).map KmsResult.toBytes

/-- The production adapter reads back its envelopes, if the cipher reads back what it encrypts. -/
lemma awsKms_roundTrip {crypto : NodeCrypto} (masterSeed : Except String Bytes)
    (hlength : ∀ key iv plaintext,
      (crypto.aes256GcmEncrypt key iv plaintext).1.length = plaintext.length)
    (htag : ∀ key iv plaintext, (crypto.aes256GcmEncrypt key iv plaintext).2.length = tagLen)
    (hdecrypt : ∀ key iv plaintext,
      crypto.aes256GcmDecrypt key iv (crypto.aes256GcmEncrypt key iv plaintext).2
        (crypto.aes256GcmEncrypt key iv plaintext).1 = some plaintext) :
    (awsKms crypto masterSeed).RoundTrip := by
  intro draw orgId keyId version plaintext purpose envelope h
  obtain ⟨result, hrun, rfl⟩ := except_map_eq_ok_iff.mp h
  unfold KmsCall.run at hrun
  simp only [except_bind_eq_ok_iff, except_mapError_eq_ok_iff] at hrun
  obtain ⟨-, -, seed, rfl, kek, hkek, hresult⟩ := hrun
  obtain rfl := (Except.ok.inj hresult).symm
  have hvalidate := @validate_envelopeBlobs crypto kek plaintext draw.dek draw.ivPayload draw.ivDek
    orgId keyId version (some purpose) draw.dek_length draw.ivPayload_length draw.ivDek_length
    (htag _ _ _) (htag _ _ _) (hlength _ _ _)
  have hplain := decryptUnder_envelopeBlobs draw.ivPayload_length draw.ivDek_length (htag _ _ _)
    (htag _ _ _) (hdecrypt kek draw.ivDek draw.dek) (hdecrypt draw.dek draw.ivPayload plaintext)
  refine except_map_eq_ok_iff.mpr ⟨.bytes plaintext, ?_, rfl⟩
  unfold KmsCall.run
  simp only [except_bind_eq_ok_iff, except_mapError_eq_ok_iff]
  exact ⟨(), hvalidate, seed, rfl, kek, hkek, hplain⟩

/-! ## The codec -/

/-- `AI_CONVERSATION_CONTENT_KEY.keyId`. -/
def aiConversationContentKeyId : String := "ai-conversation-content-v1"

/-- `AI_CONVERSATION_CONTENT_KEY.keyVersion`. -/
def aiConversationContentKeyVersion : ℤ := 1

/-- `EncryptedTitle`. -/
structure EncryptedTitle where
  ciphertext : Bytes
  dekWrapped : Bytes
  kmsKeyId : String
  kmsKeyVersion : ℤ
  hmac : Bytes
deriving DecidableEq

/-- `StoredTitle`. -/
structure StoredTitle where
  titleCiphertext : Option Bytes
  titleDekWrapped : Option Bytes
  titleKmsKeyId : Option String
  titleKmsKeyVersion : Option ℤ
deriving DecidableEq

/-- `EncryptedContent`. -/
structure EncryptedContent where
  ciphertext : Bytes
  dekWrapped : Bytes
  kmsKeyId : String
  kmsKeyVersion : ℤ
  contentHmac : Bytes
deriving DecidableEq

/-- `StoredContent`. -/
structure StoredContent where
  ciphertext : Bytes
  dekWrapped : Option Bytes
  kmsKeyId : String
  kmsKeyVersion : ℤ
deriving DecidableEq

/-- What a read throws: the failure of the KMS, or `ConversationContentUnreadableError` with its
reason. -/
inductive ContentReadError where
  | kms (failure : KmsFailure)
  | cryptoShredded
  | decryptFailed
deriving DecidableEq

section Codec

variable {δ : Type} (kms : EnvelopeKms δ) (orgId : String)

/-- `encryptConversationTitle`. -/
def encryptConversationTitle (draw : δ) (title : List Char) : Except KmsFailure EncryptedTitle := do
  let plaintext := utf8Bytes title
  let hmac ← kms.hmacSha256 .conversationContentIntegrity orgId aiConversationContentKeyId
    aiConversationContentKeyVersion plaintext
  let enc ← kms.envelopeEncrypt draw orgId aiConversationContentKeyId
    aiConversationContentKeyVersion plaintext .conversationContent
  return {
    ciphertext := enc.ciphertext
    dekWrapped := enc.dekWrapped
    kmsKeyId := aiConversationContentKeyId
    kmsKeyVersion := aiConversationContentKeyVersion
    hmac := hmac }

/-- `decryptConversationTitle`. -/
def decryptConversationTitle (row : StoredTitle) : Except ContentReadError (Option (List Char)) :=
  match row.titleCiphertext, row.titleDekWrapped, row.titleKmsKeyId, row.titleKmsKeyVersion with
  | some ciphertext, some dekWrapped, some keyId, some version =>
    match kms.envelopeDecrypt orgId keyId version ciphertext dekWrapped .conversationContent with
    | .ok plaintext => .ok (some (bufferToUtf8 plaintext.length plaintext))
    | .error failure => .error (.kms failure)
  | _, _, _, _ => .ok none

/-- `encryptConversationContent`. -/
def encryptConversationContent (draw : δ) (plaintext : Bytes) :
    Except KmsFailure EncryptedContent := do
  let contentHmac ← kms.hmacSha256 .conversationContentIntegrity orgId aiConversationContentKeyId
    aiConversationContentKeyVersion plaintext
  let enc ← kms.envelopeEncrypt draw orgId aiConversationContentKeyId
    aiConversationContentKeyVersion plaintext .conversationContent
  return {
    ciphertext := enc.ciphertext
    dekWrapped := enc.dekWrapped
    kmsKeyId := aiConversationContentKeyId
    kmsKeyVersion := aiConversationContentKeyVersion
    contentHmac := contentHmac }

/-- `decryptConversationContent`. -/
def decryptConversationContent (row : StoredContent) : Except ContentReadError Bytes :=
  match row.dekWrapped with
  | none => .error .cryptoShredded
  | some dekWrapped =>
    match kms.envelopeDecrypt orgId row.kmsKeyId row.kmsKeyVersion row.ciphertext dekWrapped
      .conversationContent with
    | .ok plaintext => .ok plaintext
    | .error _ => .error .decryptFailed

end Codec

/-! ## Rows and edits -/

/-- A plaintext: a title, or the bytes of a content. -/
inductive ConversationPlaintext where
  | title (text : List Char)
  | content (bytes : Bytes)
deriving DecidableEq

/-- The bytes that are encrypted. -/
def ConversationPlaintext.bytes : ConversationPlaintext → Bytes
  | title text => utf8Bytes text
  | content bytes => bytes

/-- Bytes as a plaintext of the same kind. -/
def ConversationPlaintext.ofBytes (bytes : Bytes) : ConversationPlaintext → ConversationPlaintext
  | title _ => .title (bufferToUtf8 bytes.length bytes)
  | content _ => .content bytes

/-- The encrypted group of a row. -/
structure EncryptedGroup where
  ciphertext : Bytes
  dekWrapped : Bytes
  kmsKeyId : String
  kmsKeyVersion : ℤ
deriving DecidableEq

/-- A row of the store with its keyed digest, `title_hmac` or `content_hmac`. -/
inductive SealedRow where
  | title (group : EncryptedGroup) (titleHmac : Bytes)
  | content (group : EncryptedGroup) (contentHmac : Bytes)
deriving DecidableEq

namespace SealedRow

/-- The encrypted group. -/
def group : SealedRow → EncryptedGroup
  | title group _ | content group _ => group

/-- The row with another encrypted group; its digest stays as written. -/
def withGroup (group : EncryptedGroup) : SealedRow → SealedRow
  | title _ titleHmac => title group titleHmac
  | content _ contentHmac => content group contentHmac

/-- A row is what the codec returned for a plaintext. -/
inductive WrittenFor {δ : Type} (kms : EnvelopeKms δ) (orgId : String) :
    ConversationPlaintext → SealedRow → Prop
  | title {draw : δ} {text : List Char} {e : EncryptedTitle}
      (h : encryptConversationTitle kms orgId draw text = .ok e) :
      WrittenFor kms orgId (.title text)
        (.title ⟨e.ciphertext, e.dekWrapped, e.kmsKeyId, e.kmsKeyVersion⟩ e.hmac)
  | content {draw : δ} {bytes : Bytes} {e : EncryptedContent}
      (h : encryptConversationContent kms orgId draw bytes = .ok e) :
      WrittenFor kms orgId (.content bytes)
        (.content ⟨e.ciphertext, e.dekWrapped, e.kmsKeyId, e.kmsKeyVersion⟩ e.contentHmac)

/-- A row read through `decryptConversationTitle` or `decryptConversationContent`. -/
def read {δ : Type} (kms : EnvelopeKms δ) (orgId : String) :
    SealedRow → Except ContentReadError (Option ConversationPlaintext)
  | title g _ =>
    (decryptConversationTitle kms orgId
      ⟨some g.ciphertext, some g.dekWrapped, some g.kmsKeyId, some g.kmsKeyVersion⟩).map
        (Option.map .title)
  | content g _ =>
    (decryptConversationContent kms orgId
      ⟨g.ciphertext, some g.dekWrapped, g.kmsKeyId, g.kmsKeyVersion⟩).map
        (fun bytes => some (.content bytes))

end SealedRow

/-! ## What an edited row is read as -/

section Swap

variable {δ : Type} {kms : EnvelopeKms δ} {orgId : String} {p q : ConversationPlaintext}
  {row other : SealedRow}

/-- The group of a row that was written decrypts to its bytes. -/
lemma SealedRow.WrittenFor.decrypt (hkms : kms.RoundTrip)
    (h : SealedRow.WrittenFor kms orgId p row) :
    kms.envelopeDecrypt orgId row.group.kmsKeyId row.group.kmsKeyVersion row.group.ciphertext
      row.group.dekWrapped .conversationContent = .ok p.bytes := by
  cases h with
  | title h =>
    unfold encryptConversationTitle at h
    simp only [except_bind_eq_ok_iff, except_pure_eq_ok_iff] at h
    obtain ⟨hmac, -, enc, henc, rfl⟩ := h
    exact hkms _ _ _ _ _ _ _ henc
  | content h =>
    unfold encryptConversationContent at h
    simp only [except_bind_eq_ok_iff, except_pure_eq_ok_iff] at h
    obtain ⟨hmac, -, enc, henc, rfl⟩ := h
    exact hkms _ _ _ _ _ _ _ henc

/-- A row with the group of another one is read as that one. -/
lemma SealedRow.read_withGroup (hkms : kms.RoundTrip)
    (hrow : SealedRow.WrittenFor kms orgId p row)
    (hother : SealedRow.WrittenFor kms orgId q other) :
    (row.withGroup other.group).read kms orgId = .ok (some (p.ofBytes q.bytes)) := by
  have hdecrypt := hother.decrypt hkms
  cases hrow with
  | title _ =>
    rw [SealedRow.withGroup, SealedRow.read, decryptConversationTitle]
    dsimp only
    rw [hdecrypt]
    rfl
  | content _ =>
    rw [SealedRow.withGroup, SealedRow.read, decryptConversationContent]
    dsimp only
    rw [hdecrypt]
    rfl

/-- **An edit that gives a row the encrypted group of another row goes unnoticed unless the two rows
hold the same plaintext.**  Reading the edited row never returns a plaintext other than the one
written to it exactly when the bytes of the other row, as a plaintext of the row's kind, are that
one. -/
theorem swapped_group_detected_iff (hkms : kms.RoundTrip)
    (hrow : SealedRow.WrittenFor kms orgId p row)
    (hother : SealedRow.WrittenFor kms orgId q other) :
    (∀ plaintext, (row.withGroup other.group).read kms orgId = .ok (some plaintext) →
      plaintext = p) ↔ p.ofBytes q.bytes = p := by
  rw [SealedRow.read_withGroup hkms hrow hother]
  constructor
  · exact fun h => h _ rfl
  · rintro h plaintext hread
    rw [← Option.some.inj (Except.ok.inj hread), h]

end Swap

/-! ## Two contents of one organisation -/

/-- Primitives whose cipher is the identity with a tag of zeros. -/
def echoCrypto : NodeCrypto where
  hkdfSync _ _ info _ := .ok info
  createHmac key message := key ++ message
  aes256GcmEncrypt _ _ plaintext := (plaintext, List.replicate 16 0)
  aes256GcmDecrypt _ _ tag ciphertext := if tag = List.replicate 16 0 then some ciphertext else none

/-- The adapter over these primitives. -/
def echoKms : EnvelopeKms EnvelopeDraw := awsKms echoCrypto (.ok [])

lemma echoKms_roundTrip : echoKms.RoundTrip :=
  awsKms_roundTrip _ (fun _ _ _ => rfl) (fun _ _ _ => rfl) fun _ _ _ => by simp [echoCrypto]

/-- The draws of the samples. -/
def sampleEnvelopeDraw : EnvelopeDraw where
  dek := List.replicate 32 7
  ivPayload := List.replicate 12 1
  ivDek := List.replicate 12 2
  dek_length := sampleEncryptCall.dek_length
  ivPayload_length := sampleEncryptCall.ivPayload_length
  ivDek_length := sampleEncryptCall.ivDek_length

/-- The row that the codec writes for the bytes of a content. -/
def sampleSealedRow (bytes : Bytes) : SealedRow :=
  .content ⟨List.replicate 12 1 ++ List.replicate 16 0 ++ bytes,
    magic ++ List.replicate 12 2 ++ List.replicate 16 0 ++ List.replicate 32 7,
    aiConversationContentKeyId, aiConversationContentKeyVersion⟩
    (KeyRequest.info {
      purpose := .conversationContentIntegrity
      orgId := "org"
      keyId := aiConversationContentKeyId
      version := aiConversationContentKeyVersion } ++ bytes)

lemma sampleSealedRow_writtenFor (bytes : Bytes) :
    SealedRow.WrittenFor echoKms "org" (.content bytes) (sampleSealedRow bytes) :=
  @SealedRow.WrittenFor.content _ echoKms "org" sampleEnvelopeDraw bytes _ rfl

theorem swapped_group_detected_iff_sample :
    (∀ plaintext, ((sampleSealedRow [1]).withGroup (sampleSealedRow [2]).group).read echoKms "org" =
      .ok (some plaintext) → plaintext = .content [1]) ↔
        ConversationPlaintext.ofBytes [2] (.content [1]) = .content [1] :=
  swapped_group_detected_iff echoKms_roundTrip (sampleSealedRow_writtenFor [1])
    (sampleSealedRow_writtenFor [2])

/-- **A row of an organisation that gets the encrypted group of another row is read as that row.** -/
theorem swapped_group_undetected : ¬ ∀ p q row other,
    SealedRow.WrittenFor echoKms "org" p row → SealedRow.WrittenFor echoKms "org" q other →
      ∀ plaintext, (row.withGroup other.group).read echoKms "org" = .ok (some plaintext) →
        plaintext = p := by
  intro h
  have hread := SealedRow.read_withGroup echoKms_roundTrip (sampleSealedRow_writtenFor [1])
    (sampleSealedRow_writtenFor [2])
  have heq := h _ _ _ _ (sampleSealedRow_writtenFor [1]) (sampleSealedRow_writtenFor [2]) _ hread
  exact absurd heq (by decide)

end GovAI
