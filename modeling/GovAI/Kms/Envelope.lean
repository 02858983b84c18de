import GovAI.Json.Texts
import GovAI.Kms.AwsKms
import GovAI.Library.Fallible
import GovAI.Library.Separators

/-!
# The envelopes of the production KMS adapter

`AwsKms.envelopeEncrypt` and `AwsKms.envelopeDecrypt` (`kms/aws-kms.ts`) over an ideal cipher: the
blobs of one call are read back under its own context, and nothing else is read.  The two layers are
bound to the context by the label of the key that wraps the data key, and to each other by the data
key itself.  `hkdfSync` takes labels of at most 1024 bytes and throws a `RangeError` on a longer one;
`deriveKey` is called outside the `try` of `envelopeDecrypt`, so under such a label nothing is read
back and the error is no `AwsKmsError` (`envelope_round_trip_and_binding_iff`).
-/

namespace GovAI

/-! ## One call from its arguments to its result -/

/-- What a call throws: an `AwsKmsError` with its code, or an error of `node:crypto`. -/
inductive KmsFailure where
  | awsKmsError (code : String)
  | nodeError (message : String)
deriving DecidableEq

/-- A call of the adapter, where `masterSeed` is what `getMasterSeed` answers. -/
def KmsCall.run (crypto : NodeCrypto) (masterSeed : Except String Bytes) (call : KmsCall) :
    Except KmsFailure KmsResult := do
  call.validate.mapError .awsKmsError
  let seed ← masterSeed.mapError .awsKmsError
  let key ← (call.keyRequest.derive crypto seed).mapError .nodeError
  (call.result crypto key).mapError .awsKmsError

/-- The context of an envelope.  The organisation is a UUID, so its text has no separator. -/
structure EnvelopeInput where
  orgId : String
  keyId : String
  version : ℤ
  purpose : Option KmsEnvelopePurpose
  orgId_separator : '|' ∉ orgId.toList

/-- The key request of a context. -/
def EnvelopeInput.request (input : EnvelopeInput) : KeyRequest where
  purpose := (input.purpose.getD .payloadDek).toPurpose
  orgId := input.orgId
  keyId := input.keyId
  version := input.version

/-- The call that reads two blobs in a context. -/
def EnvelopeInput.decrypt (input : EnvelopeInput) (ciphertext dekWrapped : Bytes) : KmsCall :=
  .envelopeDecrypt input.orgId input.keyId input.version ciphertext dekWrapped input.purpose

/-- A call of `envelopeEncrypt` with the bytes that `randomBytes` draws for it. -/
structure EncryptCall where
  input : EnvelopeInput
  plaintext : Bytes
  dek : Bytes
  ivPayload : Bytes
  ivDek : Bytes
  dek_length : dek.length = wrappedDekLen
  ivPayload_length : ivPayload.length = ivLen
  ivDek_length : ivDek.length = ivLen

/-- The call. -/
def EncryptCall.call (c : EncryptCall) : KmsCall :=
  .envelopeEncrypt c.input.orgId c.input.keyId c.input.version c.plaintext c.input.purpose c.dek
    c.ivPayload c.ivDek

/-- What a call encrypts: under which key, with which initialisation vector. -/
def EncryptCall.Encrypts (crypto : NodeCrypto) (seed : Bytes) (c : EncryptCall)
    (key iv plaintext : Bytes) : Prop :=
  (key = c.dek ∧ iv = c.ivPayload ∧ plaintext = c.plaintext) ∨
    (c.input.request.derive crypto seed = .ok key ∧ iv = c.ivDek ∧ plaintext = c.dek)

/-- The longest info string that `hkdfSync` takes, in bytes. -/
def hkdfInfoLimit : ℕ := 1024

/-- The primitives are ideal for a history of calls: HKDF has a key for every label up to the limit of
`hkdfSync`, which throws beyond it, and another key for another label; the cipher accepts what was
produced under the key and nothing else, and the data keys that `randomBytes` draws are new and are
no wrapping keys. -/
structure IdealCrypto (crypto : NodeCrypto) (seed : Bytes) (calls : List EncryptCall) : Prop where
  hkdf : ∀ info : Bytes, info.length ≤ hkdfInfoLimit →
    ∃ key, crypto.hkdfSync seed (utf8Bytes awsKmsHkdfSalt.toList) info 32 = .ok key
  hkdf_limit : ∀ info : Bytes, hkdfInfoLimit < info.length →
    ∃ e, crypto.hkdfSync seed (utf8Bytes awsKmsHkdfSalt.toList) info 32 = .error e
  hkdf_injective : ∀ info info' key,
    crypto.hkdfSync seed (utf8Bytes awsKmsHkdfSalt.toList) info 32 = .ok key →
      crypto.hkdfSync seed (utf8Bytes awsKmsHkdfSalt.toList) info' 32 = .ok key → info = info'
  ciphertext_length : ∀ key iv plaintext,
    (crypto.aes256GcmEncrypt key iv plaintext).1.length = plaintext.length
  tag_length : ∀ key iv plaintext, (crypto.aes256GcmEncrypt key iv plaintext).2.length = tagLen
  decrypt_iff : ∀ key iv tag ciphertext plaintext,
    crypto.aes256GcmDecrypt key iv tag ciphertext = some plaintext ↔
      crypto.aes256GcmEncrypt key iv plaintext = (ciphertext, tag) ∧
        ∃ c ∈ calls, c.Encrypts crypto seed key iv plaintext
  dek_new : ∀ c ∈ calls, ∀ c' ∈ calls, c.dek = c'.dek → c = c'
  dek_ne_kek : ∀ c ∈ calls, ∀ input : EnvelopeInput, input.request.derive crypto seed ≠ .ok c.dek

/-! ## The label of a key -/

/-- The parts of a label and its separators. -/
lemma KeyRequest.info_eq (r : KeyRequest) : r.info = utf8Bytes ("govai".toList ++ '|' ::
    (r.purpose.text.toList ++ '|' :: (r.orgId.toList ++ '|' ::
      (r.keyId.toList ++ '|' :: ('v' :: (Int.repr r.version).toList))))) := by
  simp only [KeyRequest.info, String.toList_append, List.append_assoc]
  rfl

lemma KmsPurpose.separator_notMem (purpose : KmsPurpose) : '|' ∉ purpose.text.toList := by
  cases purpose <;> decide

lemma KmsPurpose.text_injective : Function.Injective KmsPurpose.text := by
  intro p q h
  cases p <;> cases q <;> first | rfl | exact absurd h (by decide)

/-- The text of a version has no separator. -/
lemma separator_notMem_repr (version : ℤ) : '|' ∉ (Int.repr version).toList := by
  rw [toList_repr_int]
  cases version with
  | ofNat n => exact notMem_toDigits (by decide) n
  | negSucc n =>
    exact fun hmem => (List.mem_cons.mp hmem).elim (by decide) (notMem_toDigits (by decide) (n + 1))

/-- **The label of a key determines its context**, whatever the characters of the key's id. -/
lemma EnvelopeInput.request_eq_of_info {input input' : EnvelopeInput}
    (h : input.request.info = input'.request.info) : input.request = input'.request := by
  rw [KeyRequest.info_eq, KeyRequest.info_eq] at h
  obtain ⟨-, hpurpose⟩ := append_sep_inj (by decide) (by decide) (utf8Bytes_injective h)
  obtain ⟨hp, horg⟩ := append_sep_inj (KmsPurpose.separator_notMem _)
    (KmsPurpose.separator_notMem _) hpurpose
  obtain ⟨ho, hkey⟩ := append_sep_inj input.orgId_separator input'.orgId_separator horg
  have hversion : ∀ r : KeyRequest, '|' ∉ 'v' :: (Int.repr r.version).toList := fun r hmem =>
    (List.mem_cons.mp hmem).elim (by decide) (separator_notMem_repr r.version)
  obtain ⟨hk, hv⟩ := sep_append_inj (hversion _) (hversion _) hkey
  have hv' : input.version = input'.version :=
    repr_int_injective (List.cons.inj hv).2
  have hp' := KmsPurpose.text_injective (String.toList_injective hp)
  have ho' : input.orgId = input'.orgId := String.toList_injective ho
  have hk' : input.keyId = input'.keyId := String.toList_injective hk
  simp only [EnvelopeInput.request] at hp' ⊢
  rw [hp', ho', hk', hv']

/-! ## What the blobs are -/

/-- The blobs of an envelope. -/
def envelopeBlobs (crypto : NodeCrypto) (kek plaintext dek ivPayload ivDek : Bytes) :
    Bytes × Bytes :=
  (ivPayload ++ (crypto.aes256GcmEncrypt dek ivPayload plaintext).2 ++
      (crypto.aes256GcmEncrypt dek ivPayload plaintext).1,
    magic ++ ivDek ++ (crypto.aes256GcmEncrypt kek ivDek dek).2 ++
      (crypto.aes256GcmEncrypt kek ivDek dek).1)

section Blobs

variable {crypto : NodeCrypto} {seed : Bytes} {calls : List EncryptCall}

/-- The blobs of a call under its wrapping key. -/
def EncryptCall.blobs (crypto : NodeCrypto) (kek : Bytes) (c : EncryptCall) : Bytes × Bytes :=
  envelopeBlobs crypto kek c.plaintext c.dek c.ivPayload c.ivDek

/-- A call of `envelopeEncrypt` returns its blobs. -/
lemma EncryptCall.run_call {c : EncryptCall} {kek : Bytes}
    (hkek : c.input.request.derive crypto seed = .ok kek) :
    c.call.run crypto (.ok seed) =
      .ok (.envelope (c.blobs crypto kek).1 (c.blobs crypto kek).2) := by
  have hkey : c.call.keyRequest.derive crypto seed = .ok kek := hkek
  calc c.call.run crypto (.ok seed)
      = ((c.call.keyRequest.derive crypto seed).mapError KmsFailure.nodeError >>= fun key =>
          (c.call.result crypto key).mapError .awsKmsError) := rfl
    _ = _ := by rw [hkey]; rfl

/-- What `envelopeDecrypt` does with two blobs, once it has its wrapping key. -/
lemma EnvelopeInput.run_decrypt (input : EnvelopeInput) {ciphertext dekWrapped kek : Bytes}
    (hkek : input.request.derive crypto seed = .ok kek) :
    (input.decrypt ciphertext dekWrapped).run crypto (.ok seed) =
      ((input.decrypt ciphertext dekWrapped).validate.mapError KmsFailure.awsKmsError >>= fun _ =>
        (KmsCall.decryptUnder crypto kek ciphertext dekWrapped).mapError .awsKmsError) := by
  have hkey : (input.decrypt ciphertext dekWrapped).keyRequest.derive crypto seed = .ok kek := hkek
  calc (input.decrypt ciphertext dekWrapped).run crypto (.ok seed)
      = ((input.decrypt ciphertext dekWrapped).validate.mapError KmsFailure.awsKmsError >>= fun _ =>
          ((input.decrypt ciphertext dekWrapped).keyRequest.derive crypto seed).mapError
            KmsFailure.nodeError >>= fun key =>
              ((input.decrypt ciphertext dekWrapped).result crypto key).mapError .awsKmsError) := rfl
    _ = _ := by rw [hkey]; rfl

/-- The parts of the second blob, each of its length. -/
lemma layer_parts {ivDek tag wrapped : Bytes} (hiv : ivDek.length = ivLen)
    (htag : tag.length = tagLen) :
    let layer := (magic ++ ivDek ++ tag ++ wrapped).drop magic.length
    layer.take ivLen = ivDek ∧ (layer.drop ivLen).take tagLen = tag ∧
      layer.drop (ivLen + tagLen) = wrapped := by
  have hlayer : (magic ++ ivDek ++ tag ++ wrapped).drop magic.length =
      ivDek ++ (tag ++ wrapped) := by
    rw [List.append_assoc, List.append_assoc, List.drop_left]
  have hdrop : (ivDek ++ (tag ++ wrapped)).drop ivLen = tag ++ wrapped := by
    rw [← hiv, List.drop_left]
  dsimp only
  rw [hlayer]
  refine ⟨?_, ?_, ?_⟩
  · rw [← hiv, List.take_left]
  · rw [hdrop, ← htag, List.take_left]
  · rw [← List.drop_drop, hdrop, ← htag, List.drop_left]

/-- The parts of the first blob. -/
lemma payload_parts {ivPayload tag payload : Bytes} (hiv : ivPayload.length = ivLen)
    (htag : tag.length = tagLen) :
    (ivPayload ++ tag ++ payload).take ivLen = ivPayload ∧
      ((ivPayload ++ tag ++ payload).drop ivLen).take tagLen = tag ∧
        (ivPayload ++ tag ++ payload).drop payloadHeaderLen = payload := by
  have hdrop : (ivPayload ++ tag ++ payload).drop ivLen = tag ++ payload := by
    rw [← hiv, List.append_assoc, List.drop_left]
  refine ⟨?_, ?_, ?_⟩
  · rw [← hiv, List.append_assoc, List.take_left]
  · rw [hdrop, ← htag, List.take_left]
  · rw [payloadHeaderLen, ← List.drop_drop, hdrop, ← htag, List.drop_left]

/-- Two blobs are the concatenations of their parts. -/
lemma parts_eq {ciphertext dekWrapped : Bytes} (hmagic : dekWrapped.take magic.length = magic) :
    ciphertext = ciphertext.take ivLen ++ (ciphertext.drop ivLen).take tagLen ++
        ciphertext.drop payloadHeaderLen ∧
      dekWrapped = magic ++ (dekWrapped.drop magic.length).take ivLen ++
        ((dekWrapped.drop magic.length).drop ivLen).take tagLen ++
          (dekWrapped.drop magic.length).drop (ivLen + tagLen) := by
  have hsplit : ∀ b : Bytes, b = b.take ivLen ++ (b.drop ivLen).take tagLen ++
      b.drop (ivLen + tagLen) := by
    intro b
    rw [List.append_assoc, ← List.drop_drop, List.take_append_drop, List.take_append_drop]
  refine ⟨hsplit ciphertext, ?_⟩
  rw [List.append_assoc, List.append_assoc, ← List.append_assoc (List.take _ _), ← hsplit]
  conv_lhs => rw [← List.take_append_drop magic.length dekWrapped, hmagic]

section Form

variable {kek plaintext dek ivPayload ivDek : Bytes}

/-- The blobs of an envelope decrypt when the cipher reads back its two layers. -/
lemma decryptUnder_envelopeBlobs (hivPayload : ivPayload.length = ivLen)
    (hivDek : ivDek.length = ivLen)
    (htag : (crypto.aes256GcmEncrypt dek ivPayload plaintext).2.length = tagLen)
    (htag' : (crypto.aes256GcmEncrypt kek ivDek dek).2.length = tagLen)
    (hunwrap : crypto.aes256GcmDecrypt kek ivDek (crypto.aes256GcmEncrypt kek ivDek dek).2
      (crypto.aes256GcmEncrypt kek ivDek dek).1 = some dek)
    (hopen : crypto.aes256GcmDecrypt dek ivPayload
      (crypto.aes256GcmEncrypt dek ivPayload plaintext).2
        (crypto.aes256GcmEncrypt dek ivPayload plaintext).1 = some plaintext) :
    KmsCall.decryptUnder crypto kek (envelopeBlobs crypto kek plaintext dek ivPayload ivDek).1
      (envelopeBlobs crypto kek plaintext dek ivPayload ivDek).2 = .ok (.bytes plaintext) := by
  obtain ⟨hiv, htagDek, hwrapped⟩ :=
    @layer_parts _ _ (crypto.aes256GcmEncrypt kek ivDek dek).1 hivDek htag'
  obtain ⟨hiv', htagPayload, hpayload⟩ :=
    @payload_parts _ _ (crypto.aes256GcmEncrypt dek ivPayload plaintext).1 hivPayload htag
  unfold KmsCall.decryptUnder envelopeBlobs
  dsimp only
  rw [hiv, htagDek, hwrapped, hiv', htagPayload, hpayload, hunwrap, Option.bind_some, hopen]

/-- The blobs of an envelope pass the checks on their form. -/
lemma validate_envelopeBlobs {orgId keyId : String} {version : ℤ}
    {purpose : Option KmsEnvelopePurpose} (hdek : dek.length = wrappedDekLen)
    (hivPayload : ivPayload.length = ivLen) (hivDek : ivDek.length = ivLen)
    (htag : (crypto.aes256GcmEncrypt dek ivPayload plaintext).2.length = tagLen)
    (htag' : (crypto.aes256GcmEncrypt kek ivDek dek).2.length = tagLen)
    (hwrapped : (crypto.aes256GcmEncrypt kek ivDek dek).1.length = dek.length) :
    (KmsCall.envelopeDecrypt orgId keyId version
      (envelopeBlobs crypto kek plaintext dek ivPayload ivDek).1
        (envelopeBlobs crypto kek plaintext dek ivPayload ivDek).2 purpose).validate = .ok () := by
  have hmagic : (envelopeBlobs crypto kek plaintext dek ivPayload ivDek).2.take magic.length =
      magic := by
    simp only [envelopeBlobs, List.append_assoc, List.take_left]
  have hlayer : (envelopeBlobs crypto kek plaintext dek ivPayload ivDek).2.length = dekLayerLen := by
    simp only [envelopeBlobs, List.length_append, hivDek, htag', hwrapped, hdek, dekLayerLen]
  have hpayload :
      ¬(envelopeBlobs crypto kek plaintext dek ivPayload ivDek).1.length < payloadHeaderLen := by
    simp only [envelopeBlobs, List.length_append, hivPayload, htag, payloadHeaderLen]
    omega
  rw [KmsCall.validate, if_neg (not_not_intro hmagic), if_neg (not_not_intro hlayer),
    if_neg hpayload]

end Form

namespace IdealCrypto

/-- Every context with a label up to the limit has its wrapping key. -/
lemma exists_kek (h : IdealCrypto crypto seed calls) {input : EnvelopeInput}
    (hinfo : input.request.info.length ≤ hkdfInfoLimit) :
    ∃ kek, input.request.derive crypto seed = .ok kek :=
  h.hkdf _ hinfo

/-- A wrapping key is that of one context. -/
lemma request_eq (h : IdealCrypto crypto seed calls) {input input' : EnvelopeInput} {kek : Bytes}
    (hkek : input.request.derive crypto seed = .ok kek)
    (hkek' : input'.request.derive crypto seed = .ok kek) : input.request = input'.request :=
  EnvelopeInput.request_eq_of_info (h.hkdf_injective _ _ _ hkek hkek')

/-- What is accepted under a wrapping key is a data key that was wrapped in its context. -/
lemma of_unwrap (h : IdealCrypto crypto seed calls) {input : EnvelopeInput}
    {kek iv tag wrapped dek : Bytes} (hkek : input.request.derive crypto seed = .ok kek)
    (haccept : crypto.aes256GcmDecrypt kek iv tag wrapped = some dek) :
    ∃ c ∈ calls, c.input.request = input.request ∧ iv = c.ivDek ∧ dek = c.dek ∧
      crypto.aes256GcmEncrypt kek c.ivDek c.dek = (wrapped, tag) := by
  obtain ⟨hproduced, c, hc, ⟨rfl, -, -⟩ | ⟨hkek', rfl, rfl⟩⟩ := (h.decrypt_iff _ _ _ _ _).mp haccept
  · exact absurd hkek (h.dek_ne_kek c hc input)
  · exact ⟨c, hc, h.request_eq hkek' hkek, rfl, rfl, hproduced⟩

/-- What is accepted under a data key is the payload of its call. -/
lemma of_open (h : IdealCrypto crypto seed calls) {c : EncryptCall} (hc : c ∈ calls)
    {iv tag payload plaintext : Bytes}
    (haccept : crypto.aes256GcmDecrypt c.dek iv tag payload = some plaintext) :
    iv = c.ivPayload ∧ plaintext = c.plaintext ∧
      crypto.aes256GcmEncrypt c.dek c.ivPayload c.plaintext = (payload, tag) := by
  obtain ⟨hproduced, c', hc', ⟨hdek, rfl, rfl⟩ | ⟨hkek, -, -⟩⟩ :=
    (h.decrypt_iff _ _ _ _ _).mp haccept
  · obtain rfl := h.dek_new c hc c' hc' hdek
    exact ⟨rfl, rfl, hproduced⟩
  · exact absurd hkek (h.dek_ne_kek c hc c'.input)

/-- Blobs that decrypt are those of one call in the context, and give its plaintext. -/
lemma of_decryptUnder (h : IdealCrypto crypto seed calls) {input : EnvelopeInput}
    {kek ciphertext dekWrapped : Bytes} (hkek : input.request.derive crypto seed = .ok kek)
    (hmagic : dekWrapped.take magic.length = magic) {result : KmsResult}
    (hresult : KmsCall.decryptUnder crypto kek ciphertext dekWrapped = .ok result) :
    ∃ c ∈ calls, c.input.request = input.request ∧
      (ciphertext, dekWrapped) = c.blobs crypto kek ∧ result = .bytes c.plaintext := by
  unfold KmsCall.decryptUnder at hresult
  dsimp only at hresult
  split at hresult
  · rename_i plaintext hplain
    obtain ⟨dek, hunwrap, hopen⟩ := Option.bind_eq_some_iff.mp hplain
    obtain ⟨c, hc, hrequest, hiv, rfl, hwrapped⟩ := h.of_unwrap hkek hunwrap
    obtain ⟨hiv', rfl, hpayload⟩ := h.of_open hc hopen
    obtain ⟨hct, hdw⟩ := @parts_eq ciphertext _ hmagic
    refine ⟨c, hc, hrequest, ?_, (Except.ok.inj hresult).symm⟩
    rw [EncryptCall.blobs, envelopeBlobs, hpayload, hwrapped, ← hiv, ← hiv']
    exact Prod.ext hct hdw
  · cases hresult

/-- The blobs of a call decrypt under its wrapping key. -/
lemma decryptUnder_blobs (h : IdealCrypto crypto seed calls) {c : EncryptCall} (hc : c ∈ calls)
    {kek : Bytes} (hkek : c.input.request.derive crypto seed = .ok kek) :
    KmsCall.decryptUnder crypto kek (c.blobs crypto kek).1 (c.blobs crypto kek).2 =
      .ok (.bytes c.plaintext) := by
  refine decryptUnder_envelopeBlobs c.ivPayload_length c.ivDek_length (h.tag_length _ _ _)
    (h.tag_length _ _ _) ?_ ?_
  · exact (h.decrypt_iff kek c.ivDek _ _ c.dek).mpr ⟨rfl, c, hc, .inr ⟨hkek, rfl, rfl⟩⟩
  · exact (h.decrypt_iff c.dek c.ivPayload _ _ c.plaintext).mpr
      ⟨rfl, c, hc, .inl ⟨rfl, rfl, rfl⟩⟩

/-- The blobs of a call pass the checks on their form. -/
lemma validate_blobs (h : IdealCrypto crypto seed calls) (c : EncryptCall) (input : EnvelopeInput)
    (kek : Bytes) : (input.decrypt (c.blobs crypto kek).1 (c.blobs crypto kek).2).validate =
      .ok () :=
  validate_envelopeBlobs c.dek_length c.ivPayload_length c.ivDek_length (h.tag_length _ _ _)
    (h.tag_length _ _ _) (h.ciphertext_length _ _ _)

end IdealCrypto

end Blobs

/-! ## Round trip and binding -/

/-- Two blobs that pass the checks begin with the magic bytes. -/
lemma magic_of_validate {input : EnvelopeInput} {ciphertext dekWrapped : Bytes} {u : Unit}
    (h : (input.decrypt ciphertext dekWrapped).validate = .ok u) :
    dekWrapped.take magic.length = magic := by
  by_contra hmagic
  rw [EnvelopeInput.decrypt, KmsCall.validate, if_pos hmagic] at h
  cases h

/-- The law of the envelopes in a context.  What `envelopeEncrypt` returns is read back under the same
context.  Whatever two blobs are given, `envelopeDecrypt` either returns the plaintext of one call that
was made under exactly this context and returned exactly these blobs, or throws an `AwsKmsError`. -/
def EnvelopeLaw (crypto : NodeCrypto) (seed : Bytes) (calls : List EncryptCall) (input : EnvelopeInput)
    (masterSeed : Except String Bytes) : Prop :=
  (∀ c ∈ calls, c.input.request = input.request → masterSeed = .ok seed →
    ∃ ciphertext dekWrapped,
      c.call.run crypto masterSeed = .ok (.envelope ciphertext dekWrapped) ∧
        (input.decrypt ciphertext dekWrapped).run crypto masterSeed = .ok (.bytes c.plaintext)) ∧
  ∀ ciphertext dekWrapped,
    (∃ c ∈ calls, c.input.request = input.request ∧
      c.call.run crypto (.ok seed) = .ok (.envelope ciphertext dekWrapped) ∧
        (input.decrypt ciphertext dekWrapped).run crypto masterSeed = .ok (.bytes c.plaintext)) ∨
    ∃ code, (input.decrypt ciphertext dekWrapped).run crypto masterSeed =
      .error (.awsKmsError code)

section Law

variable {crypto : NodeCrypto} {seed : Bytes} {calls : List EncryptCall}

/-- Under a label up to the limit the law holds. -/
lemma IdealCrypto.envelopeLaw (h : IdealCrypto crypto seed calls) {input : EnvelopeInput}
    (hinfo : input.request.info.length ≤ hkdfInfoLimit) {masterSeed : Except String Bytes}
    (hseed : ∀ s, masterSeed = .ok s → s = seed) :
    EnvelopeLaw crypto seed calls input masterSeed := by
  obtain ⟨kek, hkek⟩ := h.exists_kek hinfo
  constructor
  · rintro c hc hrequest rfl
    have hkek' : c.input.request.derive crypto seed = .ok kek := by rw [hrequest, hkek]
    refine ⟨_, _, c.run_call hkek', ?_⟩
    rw [input.run_decrypt hkek, h.validate_blobs, h.decryptUnder_blobs hc hkek']
    rfl
  · intro ciphertext dekWrapped
    cases hvalidate : (input.decrypt ciphertext dekWrapped).validate with
    | error e => exact .inr ⟨e, by rw [KmsCall.run, hvalidate]; rfl⟩
    | ok u =>
      cases hmaster : masterSeed with
      | error e => exact .inr ⟨e, by rw [KmsCall.run, hvalidate]; rfl⟩
      | ok s =>
        obtain rfl := hseed s hmaster
        rw [input.run_decrypt hkek, hvalidate]
        cases hresult : KmsCall.decryptUnder crypto kek ciphertext dekWrapped with
        | error e => exact .inr ⟨e, rfl⟩
        | ok result =>
          obtain ⟨c, hc, hrequest, hblobs, rfl⟩ :=
            h.of_decryptUnder hkek (magic_of_validate hvalidate) hresult
          have hkek' : c.input.request.derive crypto s = .ok kek := by rw [hrequest, hkek]
          refine .inl ⟨c, hc, hrequest, ?_, rfl⟩
          rw [c.run_call hkek', ← hblobs]

/-- Beyond the limit every call that asks for a wrapping key throws the error of `hkdfSync`. -/
lemma IdealCrypto.run_of_long_info (h : IdealCrypto crypto seed calls) {call : KmsCall}
    (hcheck : call.validate = .ok ()) (hlength : call.keyRequest.length = 32)
    (hinfo : hkdfInfoLimit < call.keyRequest.info.length) :
    ∃ e, call.run crypto (.ok seed) = .error (.nodeError e) := by
  obtain ⟨e, he⟩ := h.hkdf_limit _ hinfo
  have hkey : call.keyRequest.derive crypto seed = .error e := by rw [KeyRequest.derive, hlength, he]
  refine ⟨e, ?_⟩
  rw [KmsCall.run, hcheck]
  calc _ = ((call.keyRequest.derive crypto seed).mapError KmsFailure.nodeError >>= fun key =>
        (call.result crypto key).mapError .awsKmsError) := rfl
    _ = _ := by rw [hkey]; rfl

/-- Beyond the limit blobs of the right form are answered with an error that is no `AwsKmsError`. -/
lemma IdealCrypto.not_envelopeLaw (h : IdealCrypto crypto seed calls) {input : EnvelopeInput}
    (hinfo : hkdfInfoLimit < input.request.info.length) :
    ¬EnvelopeLaw crypto seed calls input (.ok seed) := by
  have hcheck : (input.decrypt (List.replicate payloadHeaderLen 0)
      (magic ++ List.replicate (dekLayerLen - magic.length) 0)).validate = .ok () := by
    rfl
  obtain ⟨e, he⟩ := h.run_of_long_info hcheck rfl hinfo
  intro hlaw
  rcases hlaw.2 _ _ with ⟨c, -, -, -, hread⟩ | ⟨code, hcode⟩
  · rw [he] at hread
    cases hread
  · rw [he] at hcode
    cases hcode

end Law

/-- **The envelope round trip and its binding.**  The law holds in a context, whatever
`getMasterSeed` answers, exactly if the label of the context has at most 1024 bytes. -/
theorem envelope_round_trip_and_binding_iff {crypto : NodeCrypto} {seed : Bytes}
    {calls : List EncryptCall} (h : IdealCrypto crypto seed calls) (input : EnvelopeInput) :
    (∀ masterSeed : Except String Bytes, (∀ s, masterSeed = .ok s → s = seed) →
      EnvelopeLaw crypto seed calls input masterSeed) ↔
        input.request.info.length ≤ hkdfInfoLimit := by
  constructor
  · intro hlaw
    by_contra hinfo
    exact h.not_envelopeLaw (not_le.mp hinfo) (hlaw (.ok seed) fun s hs => (Except.ok.inj hs).symm)
  · exact fun hinfo masterSeed hseed => h.envelopeLaw hinfo hseed

/-! ## A history of one call -/

/-- The context of the sample. -/
def sampleEnvelopeInput : EnvelopeInput where
  orgId := "00000000-0000-0000-0000-000000000001"
  keyId := "conversation|content"
  version := 1
  purpose := some .conversationContent
  orgId_separator := by decide

/-- A call that encrypts one byte. -/
def sampleEncryptCall : EncryptCall where
  input := sampleEnvelopeInput
  plaintext := [42]
  dek := List.replicate 32 7
  ivPayload := List.replicate 12 1
  ivDek := List.replicate 12 2
  dek_length := rfl
  ivPayload_length := rfl
  ivDek_length := rfl

/-- Primitives that know the one call: a label up to the limit is its key, and what was not produced by
the call is not accepted. -/
def tableCrypto : NodeCrypto where
  hkdfSync _ _ info _ := if info.length ≤ hkdfInfoLimit then .ok info else .error "ERR_OUT_OF_RANGE"
  createHmac key message := key ++ message
  aes256GcmEncrypt _ _ plaintext := (plaintext, List.replicate 16 0)
  aes256GcmDecrypt key iv tag ciphertext :=
    if tag = List.replicate 16 0 ∧
        ((key = sampleEncryptCall.dek ∧ iv = sampleEncryptCall.ivPayload ∧
            ciphertext = sampleEncryptCall.plaintext) ∨
          (key = sampleEnvelopeInput.request.info ∧ iv = sampleEncryptCall.ivDek ∧
            ciphertext = sampleEncryptCall.dek)) then
      some ciphertext
    else none

/-- A key of the table is its label. -/
lemma tableCrypto_hkdf_eq_ok {seed salt info key : Bytes} {length : ℕ} :
    tableCrypto.hkdfSync seed salt info length = .ok key ↔
      info.length ≤ hkdfInfoLimit ∧ info = key := by
  change (if info.length ≤ hkdfInfoLimit then (Except.ok info : Except String Bytes) else _) = _ ↔ _
  split <;> simp_all

lemma tableCrypto_ideal : IdealCrypto tableCrypto [] [sampleEncryptCall] where
  hkdf info hinfo := ⟨info, if_pos hinfo⟩
  hkdf_limit info hinfo := ⟨_, if_neg (not_le.mpr hinfo)⟩
  hkdf_injective info info' key h h' :=
    (tableCrypto_hkdf_eq_ok.mp h).2.trans (tableCrypto_hkdf_eq_ok.mp h').2.symm
  ciphertext_length _ _ _ := rfl
  tag_length _ _ _ := rfl
  decrypt_iff key iv tag ciphertext plaintext := by
    have hderive : sampleEnvelopeInput.request.derive tableCrypto [] = .ok key ↔
        key = sampleEnvelopeInput.request.info := by
      rw [KeyRequest.derive, tableCrypto_hkdf_eq_ok, eq_comm]
      exact and_iff_right (by decide)
    have hencrypts : (∃ c ∈ [sampleEncryptCall], c.Encrypts tableCrypto [] key iv plaintext) ↔
        (key = sampleEncryptCall.dek ∧ iv = sampleEncryptCall.ivPayload ∧
            plaintext = sampleEncryptCall.plaintext) ∨
          (key = sampleEnvelopeInput.request.info ∧ iv = sampleEncryptCall.ivDek ∧
            plaintext = sampleEncryptCall.dek) := by
      simp only [List.mem_singleton, exists_eq_left, EncryptCall.Encrypts]
      exact or_congr Iff.rfl (and_congr_left fun _ => hderive)
    rw [hencrypts]
    simp only [tableCrypto, Option.ite_none_right_eq_some, Option.some.injEq, Prod.mk.injEq]
    constructor
    · rintro ⟨⟨rfl, hknown⟩, rfl⟩
      exact ⟨⟨rfl, rfl⟩, hknown⟩
    · rintro ⟨⟨rfl, rfl⟩, hknown⟩
      exact ⟨⟨rfl, hknown⟩, rfl⟩
  dek_new c hc c' hc' _ := (List.mem_singleton.mp hc).trans (List.mem_singleton.mp hc').symm
  dek_ne_kek c hc input h := by
    have hinfo : input.request.info = List.replicate 32 7 := by
      rw [List.mem_singleton.mp hc] at h
      exact (tableCrypto_hkdf_eq_ok.mp h).2
    rw [KeyRequest.info_eq] at hinfo
    exact absurd (congrArg List.head? hinfo) (by simp [utf8Bytes]; decide)

/-- The one call of the history is read back, and every other pair of blobs is refused or is its own. -/
theorem envelope_round_trip_and_binding_iff_sample :
    EnvelopeLaw tableCrypto [] [sampleEncryptCall] sampleEnvelopeInput (.ok []) ∧
      ∃ ciphertext dekWrapped,
        sampleEncryptCall.call.run tableCrypto (.ok []) = .ok (.envelope ciphertext dekWrapped) ∧
          (sampleEnvelopeInput.decrypt ciphertext dekWrapped).run tableCrypto (.ok []) =
            .ok (.bytes [42]) := by
  have hlaw := (envelope_round_trip_and_binding_iff tableCrypto_ideal sampleEnvelopeInput).mpr
    (by decide) (.ok []) fun _ h => (Except.ok.inj h).symm
  exact ⟨hlaw, hlaw.1 sampleEncryptCall (List.mem_singleton_self _) rfl rfl⟩

/-- A text has at least as many bytes as characters. -/
lemma length_le_utf8Bytes (text : List Char) : text.length ≤ (utf8Bytes text).length := by
  induction text with
  | nil => exact Nat.zero_le _
  | cons c text ih =>
    have hc : 0 < (String.utf8EncodeChar c).length := by
      rw [String.length_utf8EncodeChar]
      exact Char.utf8Size_pos c
    rw [utf8Bytes, List.flatMap_cons, List.length_append, List.length_cons]
    exact (Nat.add_comm _ _).le.trans (Nat.add_le_add hc ih)

/-- A context whose key has an id of a thousand characters. -/
def longEnvelopeInput : EnvelopeInput :=
  { sampleEnvelopeInput with keyId := String.ofList (List.replicate 1000 'k') }

/-- A label contains the id of the key and the organisation. -/
lemma KeyRequest.length_le_info (request : KeyRequest) :
    request.keyId.toList.length + request.orgId.toList.length ≤ request.info.length := by
  rw [KeyRequest.info_eq]
  refine le_trans ?_ (length_le_utf8Bytes _)
  simp only [List.length_append, List.length_cons]
  omega

/-- The label of the long context is longer than the limit. -/
lemma longEnvelopeInput_info : hkdfInfoLimit < longEnvelopeInput.request.info.length := by
  have hkey : longEnvelopeInput.request.keyId.toList.length = 1000 := by
    rw [show longEnvelopeInput.request.keyId = String.ofList (List.replicate 1000 'k') from rfl,
      String.toList_ofList, List.length_replicate]
  have horg : longEnvelopeInput.request.orgId.toList.length = 36 := by decide
  have hle := longEnvelopeInput.request.length_le_info
  rw [hkey, horg] at hle
  exact lt_of_lt_of_le (by decide) hle

/-- **A long key id has no envelopes.**  The label of the context is longer than `hkdfSync` takes:
`envelopeEncrypt` throws in it, and `envelopeDecrypt` throws an error that is no `AwsKmsError`. -/
theorem long_keyId_breaks_envelopeLaw : IdealCrypto tableCrypto [] [sampleEncryptCall] ∧
    (∃ e, ({ sampleEncryptCall with input := longEnvelopeInput }).call.run tableCrypto (.ok []) =
      .error (.nodeError e)) ∧
    ¬EnvelopeLaw tableCrypto [] [sampleEncryptCall] longEnvelopeInput (.ok []) := by
  have hrequest : ({ sampleEncryptCall with input := longEnvelopeInput }).call.keyRequest =
      longEnvelopeInput.request := rfl
  have hinfo : hkdfInfoLimit <
      ({ sampleEncryptCall with input := longEnvelopeInput }).call.keyRequest.info.length := by
    rw [hrequest]
    exact longEnvelopeInput_info
  exact ⟨tableCrypto_ideal, tableCrypto_ideal.run_of_long_info rfl rfl hinfo,
    tableCrypto_ideal.not_envelopeLaw longEnvelopeInput_info⟩

end GovAI
