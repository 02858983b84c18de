import GovAI.Audit.Event
import Mathlib.Tactic

/-!
# The event id of a sealed capture

`sealer-event-id.ts`: the id under which a capture is appended to the audit chain is a UUID of
version 5 over the names of its organisation and of the capture.  Three facts are used later: the
text of a `uuid` is read back as this `uuid`, the name determines the capture, and an id of version
5 is never a random one (version 4).  SHA-1 is a parameter.
-/

namespace GovAI

/-! ## The text of a `uuid` is read back -/

/-- A hexadecimal digit is no hyphen. -/
lemma hexDigit_ne_hyphen {n : ℕ} (hn : n < 16) : hexDigit n ≠ '-' := by
  revert n
  decide

/-- A hexadecimal digit is no brace. -/
lemma hexDigit_ne_brace {n : ℕ} (hn : n < 16) : hexDigit n ≠ '\x7b' := by
  revert n
  decide

/-- A byte is read back from its two digits. -/
lemma hexByte_hexDigit {m n : ℕ} (hm : m < 16) (hn : n < 16) :
    hexByte (hexDigit m) (hexDigit n) = some (m * 16 + n) := by
  simp [hexByte, hexValue_hexDigit hm, hexValue_hexDigit hn]

/-- Scanning one byte. -/
lemma uuidScan_byte {i acc m n : ℕ} (hi : i < 16) (hm : m < 16) (hn : n < 16) (rest : List Char) :
    uuidScan i acc (hexDigit m :: hexDigit n :: rest) =
      uuidScan (i + 1) (acc * 256 + (m * 16 + n)) rest := by
  rw [uuidScan, if_pos hi, hexByte_hexDigit hm hn, Option.bind_some]
  intro c rest' h
  exact absurd h (hexDigit_ne_hyphen hm)

/-- Scanning a hyphen and the byte behind it. -/
lemma uuidScan_hyphen {i acc m n : ℕ} (hi : i % 2 = 0 ∧ 0 < i ∧ i < 16) (hm : m < 16)
    (hn : n < 16) (rest : List Char) :
    uuidScan i acc ('-' :: hexDigit m :: hexDigit n :: rest) =
      uuidScan (i + 1) (acc * 256 + (m * 16 + n)) rest := by
  rw [uuidScan, if_pos hi, hexByte_hexDigit hm hn, Option.bind_some]

/-- The digits read so far are the upper ones. -/
lemma shift_digits (n k : ℕ) :
    n / 16 ^ (k + 2) * 256 + (n / 16 ^ (k + 1) % 16 * 16 + n / 16 ^ k % 16) = n / 16 ^ k := by
  have h₁ : n / 16 ^ (k + 1) = n / 16 ^ k / 16 := by rw [pow_succ, Nat.div_div_eq_div_mul]
  have h₂ : n / 16 ^ (k + 2) = n / 16 ^ k / 16 / 16 := by
    rw [pow_succ, ← Nat.div_div_eq_div_mul, h₁]
  rw [h₁, h₂]
  omega

/-- Scanning two digits of a number whose upper digits were read. -/
lemma uuidScan_digits {i : ℕ} (hi : i < 16) (n k : ℕ) (rest : List Char) :
    uuidScan i (n / 16 ^ (k + 2))
      (hexDigit (n / 16 ^ (k + 1) % 16) :: hexDigit (n / 16 ^ k % 16) :: rest) =
      uuidScan (i + 1) (n / 16 ^ k) rest := by
  rw [uuidScan_byte hi (Nat.mod_lt _ (by decide)) (Nat.mod_lt _ (by decide)), shift_digits]

/-- Scanning a hyphen and two digits. -/
lemma uuidScan_hyphen_digits {i : ℕ} (hi : i % 2 = 0 ∧ 0 < i ∧ i < 16) (n k : ℕ)
    (rest : List Char) :
    uuidScan i (n / 16 ^ (k + 2))
      ('-' :: hexDigit (n / 16 ^ (k + 1) % 16) :: hexDigit (n / 16 ^ k % 16) :: rest) =
      uuidScan (i + 1) (n / 16 ^ k) rest := by
  rw [uuidScan_hyphen hi (Nat.mod_lt _ (by decide)) (Nat.mod_lt _ (by decide)), shift_digits]

/-- Scanning the text of a `uuid`. -/
lemma uuidScan_toText (u : Uuid) : uuidScan 0 0 u.toText.toList = some u.toNat := by
  have hzero : u.toNat / 16 ^ 32 = 0 := Nat.div_eq_of_lt (by simpa using u.isLt)
  rw [Uuid.toText, String.toList_ofList]
  simp only [Uuid.digits, List.range', List.reverse_cons, List.reverse_nil, List.nil_append,
    List.cons_append, List.map_cons, List.map_nil, Nat.reduceAdd, Nat.reduceSub]
  calc
    _ = uuidScan 0 (u.toNat / 16 ^ 32) _ := by rw [hzero]
    _ = uuidScan 1 (u.toNat / 16 ^ 30) _ := uuidScan_digits (by decide) _ 30 _
    _ = uuidScan 2 (u.toNat / 16 ^ 28) _ := uuidScan_digits (by decide) _ 28 _
    _ = uuidScan 3 (u.toNat / 16 ^ 26) _ := uuidScan_digits (by decide) _ 26 _
    _ = uuidScan 4 (u.toNat / 16 ^ 24) _ := uuidScan_digits (by decide) _ 24 _
    _ = uuidScan 5 (u.toNat / 16 ^ 22) _ := uuidScan_hyphen_digits (by decide) _ 22 _
    _ = uuidScan 6 (u.toNat / 16 ^ 20) _ := uuidScan_digits (by decide) _ 20 _
    _ = uuidScan 7 (u.toNat / 16 ^ 18) _ := uuidScan_hyphen_digits (by decide) _ 18 _
    _ = uuidScan 8 (u.toNat / 16 ^ 16) _ := uuidScan_digits (by decide) _ 16 _
    _ = uuidScan 9 (u.toNat / 16 ^ 14) _ := uuidScan_hyphen_digits (by decide) _ 14 _
    _ = uuidScan 10 (u.toNat / 16 ^ 12) _ := uuidScan_digits (by decide) _ 12 _
    _ = uuidScan 11 (u.toNat / 16 ^ 10) _ := uuidScan_hyphen_digits (by decide) _ 10 _
    _ = uuidScan 12 (u.toNat / 16 ^ 8) _ := uuidScan_digits (by decide) _ 8 _
    _ = uuidScan 13 (u.toNat / 16 ^ 6) _ := uuidScan_digits (by decide) _ 6 _
    _ = uuidScan 14 (u.toNat / 16 ^ 4) _ := uuidScan_digits (by decide) _ 4 _
    _ = uuidScan 15 (u.toNat / 16 ^ 2) _ := uuidScan_digits (by decide) _ 2 _
    _ = uuidScan 16 (u.toNat / 16 ^ 0) _ := uuidScan_digits (by decide) _ 0 _
    _ = some u.toNat := by simp [uuidScan]

/-- **The text of a `uuid` is read back as this `uuid`.** -/
theorem uuidIn_toText (u : Uuid) : uuidIn u.toText = some u := by
  have hscan := uuidScan_toText u
  have hbrace : ∀ rest, u.toText.toList ≠ '\x7b' :: rest := by
    intro rest h
    rw [Uuid.toText, String.toList_ofList] at h
    simp only [Uuid.digits, List.range', List.reverse_cons, List.reverse_nil, List.nil_append,
      List.cons_append, List.map_cons, List.map_nil, List.cons.injEq] at h
    exact hexDigit_ne_brace (Nat.mod_lt _ (by decide)) h.1
  unfold uuidIn
  split
  · next rest h => exact absurd h (hbrace rest)
  · simp [hscan]

/-- Different values have different texts. -/
theorem Uuid.toText_injective : Function.Injective Uuid.toText := by
  intro u v h
  have hu := uuidIn_toText u
  rw [h, uuidIn_toText] at hu
  exact (Option.some.inj hu).symm

/-! ## UUIDs of version 5 -/

/-- The sixteen bytes of a `uuid`. -/
def Uuid.bytes (u : Uuid) : Bytes :=
  ((List.range 16).reverse).map fun i => UInt8.ofNat (u.toNat / 256 ^ i)

/-- The number that bytes spell, the first one being the most significant. -/
def bytesToNat (b : Bytes) : ℕ := b.foldl (fun acc x => acc * 256 + x.toNat) 0

/-- The `uuid` of sixteen bytes. -/
def Uuid.ofBytes (b : Bytes) : Uuid := BitVec.ofNat 128 (bytesToNat b)

/-- The version of a `uuid`: the upper half of byte 6. -/
def Uuid.version (u : Uuid) : ℕ := u.toNat / 2 ^ 76 % 16

/-- `uuid5` of `sealer-event-id.ts`; `sha1` is the hash function of the platform. -/
def uuid5 (sha1 : Bytes → Vector UInt8 20) (namespaceUuid : Uuid) (name : String) : Uuid :=
  let hash := (sha1 (namespaceUuid.bytes ++ utf8Bytes name.toList)).toList
  let bytes := hash.take 16
  let bytes := bytes.set 6 ((bytes.getD 6 0 &&& 0x0f) ||| 0x50)
  let bytes := bytes.set 8 ((bytes.getD 8 0 &&& 0x3f) ||| 0x80)
  .ofBytes bytes

/-- `AUDIT_SEALER_CAPTURE_EVENT_NAMESPACE_UUID`. -/
def auditSealerCaptureEventNamespace : Uuid := 0x6b005489aad5576dbcf8a8c55fe40417

/-- The name of a capture. -/
def captureEventName (orgId captureId : Uuid) : String :=
  "org:" ++ orgId.toText ++ ":capture:" ++ captureId.toText

/-- `deriveAuditSealerCaptureEventId`. -/
def deriveAuditSealerCaptureEventId (sha1 : Bytes → Vector UInt8 20) (orgId captureId : Uuid) :
    Uuid :=
  uuid5 sha1 auditSealerCaptureEventNamespace (captureEventName orgId captureId)

/-- The name determines the organisation and the capture. -/
theorem captureEventName_inj {org org' x x' : Uuid}
    (h : captureEventName org x = captureEventName org' x') : org = org' ∧ x = x' := by
  have hlist := congrArg String.toList h
  simp only [captureEventName, String.toList_append, List.append_assoc] at hlist
  have hrest := List.append_cancel_left hlist
  have hlen : org.toText.toList.length = org'.toText.toList.length := by
    rw [String.length_toList, String.length_toList, Uuid.length_toText, Uuid.length_toText]
  obtain ⟨horg, hrest⟩ := List.append_inj hrest hlen
  exact ⟨Uuid.toText_injective (String.toList_injective horg),
    Uuid.toText_injective (String.toList_injective (List.append_cancel_left hrest))⟩

/-- Bytes spell a number below the power of 256. -/
lemma foldl_bytes (b : Bytes) (acc : ℕ) :
    ∃ low < 256 ^ b.length,
      b.foldl (fun acc x => acc * 256 + x.toNat) acc = acc * 256 ^ b.length + low := by
  induction b generalizing acc with
  | nil => exact ⟨0, by simp⟩
  | cons x b ih =>
    obtain ⟨low, hlow, hfold⟩ := ih (acc * 256 + x.toNat)
    refine ⟨x.toNat * 256 ^ b.length + low, ?_, ?_⟩
    · have hx : x.toNat + 1 ≤ 256 := x.toNat_lt
      calc x.toNat * 256 ^ b.length + low
          < x.toNat * 256 ^ b.length + 256 ^ b.length := by omega
        _ = (x.toNat + 1) * 256 ^ b.length := by ring
        _ ≤ 256 * 256 ^ b.length := Nat.mul_le_mul_right _ hx
        _ = 256 ^ (x :: b).length := by rw [List.length_cons, pow_succ]; ring
    · rw [List.foldl_cons, hfold, List.length_cons, pow_succ]
      ring

/-- The version of a `uuid` is the upper half of its seventh byte. -/
lemma version_ofBytes (pre : Bytes) {post : Bytes} (x : UInt8) (hpost : post.length = 9) :
    (Uuid.ofBytes (pre ++ x :: post)).version = x.toNat / 16 := by
  obtain ⟨high, -, hfold⟩ := foldl_bytes pre 0
  obtain ⟨low, hlow, hfold'⟩ := foldl_bytes post (high * 256 + x.toNat)
  have hx : x.toNat < 256 := x.toNat_lt
  have hnum : bytesToNat (pre ++ x :: post) = (high * 256 + x.toNat) * 256 ^ 9 + low := by
    rw [bytesToNat, List.foldl_append, hfold, List.foldl_cons, zero_mul, zero_add, hfold', hpost]
  rw [hpost] at hlow
  rw [Uuid.version, Uuid.ofBytes, BitVec.toNat_ofNat, hnum]
  norm_num at hlow ⊢
  omega

/-- **An id of version 5.** -/
theorem version_uuid5 (sha1 : Bytes → Vector UInt8 20) (namespaceUuid : Uuid) (name : String) :
    (uuid5 sha1 namespaceUuid name).version = 5 := by
  have hbyte : ∀ n < 256, ((n &&& 15) ||| 80) / 16 = 5 := by decide +kernel
  rw [uuid5]
  set bytes := (sha1 (namespaceUuid.bytes ++ utf8Bytes name.toList)).toList.take 16 with hbytes
  have hlen : bytes.length = 16 := by simp [hbytes]
  generalize bytes.getD 6 0 = b
  obtain ⟨pre, x, post, hsplit, hpre, hpost⟩ :
      ∃ pre x post, bytes = pre ++ x :: post ∧ pre.length = 6 ∧ post.length = 9 :=
    ⟨bytes.take 6, bytes[6], bytes.drop 7, by simp, by simp [hlen], by simp [hlen]⟩
  have hset : ∀ v w, (bytes.set 6 v).set 8 w = pre ++ v :: post.set 1 w := by
    intro v w
    rw [hsplit]
    simp [hpre]
  rw [hset, version_ofBytes _ _ (by simpa using hpost)]
  simpa using hbyte b.toNat b.toNat_lt

end GovAI
