import GovAI.Kms.AwsKms

/-!
# Derived keys and timing

A call that starts when the cache has expired zeroes the cached buffer, also when another call still
has to read it.  In every run in which no call starts at such a moment all keys are derived from the
master seed (`keysFromSeed_of_safe`); `start_zeroes` shows that each other start leaves a call
with a zeroed seed, and `keysFromSeed_fails` is a run in which a key is derived from zeros.
-/

namespace GovAI

open Function

variable {crypto : NodeCrypto} {ttlMs : ℤ} {ttlSeconds : ℕ} {masterSeed : Bytes} {s s' : KmsState}

/-- Every derivation that has completed used the master seed, and what the call returns is computed
from its arguments and that seed alone. -/
structure KeysFromSeed (crypto : NodeCrypto) (masterSeed : Bytes) (s : KmsState) : Prop where
  derived : ∀ id call seed key, s.calls id = some (.keyReady call seed key) →
    seed = masterSeed ∧ call.keyRequest.derive crypto masterSeed = .ok key
  returned : ∀ id call seed result, s.calls id = some (.done call seed result) →
    seed = masterSeed ∧
      ∃ key, call.keyRequest.derive crypto masterSeed = .ok key ∧ result = call.result crypto key

/-- A call has received `buffer` from `getMasterSeed` and has not read it yet. -/
def KmsState.Holds (s : KmsState) (id buffer : ℕ) : Prop :=
  ∃ call, s.calls id = some (.seedReady call buffer)

/-- An action is safe unless it is the start of a call that finds the cache expired while another
call holds the cached buffer. -/
def KmsState.Safe (s : KmsState) : KmsAction → Prop
  | .start _ call => call.validate = .ok () → s.seedExpiresAtMs ≤ s.clock →
      ∀ buffer, s.seedCache = some buffer → ∀ id, ¬s.Holds id buffer
  | _ => True

/-- What holds along a safe run. -/
structure KmsInv (crypto : NodeCrypto) (masterSeed : Bytes) (s : KmsState) : Prop where
  keys : KeysFromSeed crypto masterSeed s
  /-- A buffer that a call holds contains the master seed. -/
  held : ∀ id buffer, s.Holds id buffer → buffer < s.allocated ∧ s.heap buffer = masterSeed
  /-- So does the cached buffer. -/
  cached : ∀ buffer, s.seedCache = some buffer → buffer < s.allocated ∧ s.heap buffer = masterSeed

/-! ## The effect of the operations -/

@[simp] lemma KmsState.setCall_heap (s : KmsState) (id : ℕ) (c : KmsCallState) :
    (s.setCall id c).heap = s.heap := rfl

@[simp] lemma KmsState.setCall_seedCache (s : KmsState) (id : ℕ) (c : KmsCallState) :
    (s.setCall id c).seedCache = s.seedCache := rfl

@[simp] lemma KmsState.setCall_allocated (s : KmsState) (id : ℕ) (c : KmsCallState) :
    (s.setCall id c).allocated = s.allocated := rfl

/-- The call that was set, and the others. -/
lemma KmsState.setCall_calls (s : KmsState) (id i : ℕ) (c : KmsCallState) :
    (s.setCall id c).calls i = if i = id then some c else s.calls i := by
  simp [setCall, update_apply]

@[simp] lemma KmsState.clearSeedCache_calls (s : KmsState) : s.clearSeedCache.calls = s.calls := by
  unfold clearSeedCache
  split <;> rfl

@[simp] lemma KmsState.clearSeedCache_seedCache (s : KmsState) :
    s.clearSeedCache.seedCache = none := by
  unfold clearSeedCache
  split
  · rfl
  · assumption

@[simp] lemma KmsState.clearSeedCache_allocated (s : KmsState) :
    s.clearSeedCache.allocated = s.allocated := by
  unfold clearSeedCache
  split <;> rfl

/-- Clearing touches the cached buffer only. -/
lemma KmsState.clearSeedCache_heap_of_ne {buffer : ℕ} (h : s.seedCache ≠ some buffer) :
    s.clearSeedCache.heap buffer = s.heap buffer := by
  unfold clearSeedCache
  split
  · next b hb =>
    refine update_of_ne ?_ _ _
    rintro rfl
    exact h hb
  · rfl

/-- What a call state says about the seed: one that has been derived is the master seed. -/
def KmsCallState.Ok (crypto : NodeCrypto) (masterSeed : Bytes) : KmsCallState → Prop
  | .keyReady call seed key =>
      seed = masterSeed ∧ call.keyRequest.derive crypto masterSeed = .ok key
  | .done call seed result => seed = masterSeed ∧
      ∃ key, call.keyRequest.derive crypto masterSeed = .ok key ∧ result = call.result crypto key
  | _ => True

/-- Replacing the state of a call by one that is right. -/
lemma KeysFromSeed.setCall (h : KeysFromSeed crypto masterSeed s) {id : ℕ} {c : KmsCallState}
    (hc : c.Ok crypto masterSeed) : KeysFromSeed crypto masterSeed (s.setCall id c) := by
  constructor
  · intro i call seed key hi
    rw [KmsState.setCall_calls] at hi
    split at hi
    · obtain rfl := Option.some.inj hi
      exact hc
    · exact h.derived i call seed key hi
  · intro i call seed result hi
    rw [KmsState.setCall_calls] at hi
    split at hi
    · obtain rfl := Option.some.inj hi
      exact hc
    · exact h.returned i call seed result hi

/-- The buffers held after a call has been replaced. -/
lemma KmsState.Holds.of_setCall {id i buffer : ℕ} {c : KmsCallState}
    (h : (s.setCall id c).Holds i buffer) :
    s.Holds i buffer ∨ ∃ call, c = .seedReady call buffer := by
  obtain ⟨call, hcall⟩ := h
  rw [KmsState.setCall_calls] at hcall
  split at hcall
  · exact .inr ⟨call, Option.some.inj hcall⟩
  · exact .inl ⟨call, hcall⟩

/-- Replacing the state of a call by one that is right and holds no new buffer. -/
lemma KmsInv.setCall (h : KmsInv crypto masterSeed s) {id : ℕ} {c : KmsCallState}
    (hc : c.Ok crypto masterSeed)
    (hheld : ∀ call buffer, c = .seedReady call buffer →
      buffer < s.allocated ∧ s.heap buffer = masterSeed) :
    KmsInv crypto masterSeed (s.setCall id c) where
  keys := h.keys.setCall hc
  held i buffer hi := by
    rcases hi.of_setCall with hi | ⟨call, rfl⟩
    · exact h.held i buffer hi
    · exact hheld call buffer rfl
  cached := h.cached

/-! ## Every safe step keeps the invariant -/

/-- Clearing the cache is harmless when nobody holds the cached buffer. -/
lemma KmsInv.clearSeedCache (h : KmsInv crypto masterSeed s)
    (hsafe : ∀ buffer, s.seedCache = some buffer → ∀ id, ¬s.Holds id buffer) :
    KmsInv crypto masterSeed s.clearSeedCache where
  keys := ⟨by simpa using h.keys.derived, by simpa using h.keys.returned⟩
  held i buffer hi := by
    have hi : s.Holds i buffer := by simpa [KmsState.Holds] using hi
    obtain ⟨hlt, hseed⟩ := h.held i buffer hi
    have hne : s.seedCache ≠ some buffer := fun hc => hsafe buffer hc i hi
    exact ⟨by simpa using hlt, (KmsState.clearSeedCache_heap_of_ne hne).trans hseed⟩
  cached buffer hb := by simp at hb

/-- The start of a call. -/
lemma KmsInv.start (h : KmsInv crypto masterSeed s) {id : ℕ} {call : KmsCall}
    (hsafe : s.Safe (.start id call)) : KmsInv crypto masterSeed (s.start id call) := by
  unfold KmsState.start
  cases hvalidate : call.validate with
  | error e => exact h.setCall trivial (by simp)
  | ok u =>
    simp only [KmsState.getMasterSeed]
    cases hcached : s.cachedSeed with
    | some buffer =>
      obtain ⟨hbuffer, -⟩ := Option.filter_eq_some_iff.mp hcached
      refine h.setCall trivial fun call' buffer' heq => ?_
      obtain ⟨rfl, rfl⟩ := KmsCallState.seedReady.inj heq
      exact h.cached _ hbuffer
    | none =>
      refine KmsInv.setCall (h.clearSeedCache fun buffer hbuffer => ?_) trivial (by simp)
      refine hsafe hvalidate ?_ buffer hbuffer
      rw [KmsState.cachedSeed, hbuffer] at hcached
      simpa using hcached

/-- The master seed is copied into a fresh buffer. -/
lemma KmsInv.storeSeed (h : KmsInv crypto masterSeed s) (now : ℤ) :
    KmsInv crypto masterSeed (s.storeSeed ttlMs now masterSeed) where
  keys := ⟨h.keys.derived, h.keys.returned⟩
  held i buffer hi := by
    obtain ⟨hlt, hseed⟩ := h.held i buffer hi
    exact ⟨Nat.lt_succ_of_lt hlt, (update_of_ne hlt.ne _ _).trans hseed⟩
  cached buffer hb := by
    obtain rfl := Option.some.inj hb
    exact ⟨Nat.lt_succ_self _, update_self ..⟩

/-- The answer of the client. -/
lemma KmsInv.decryptAnswered (h : KmsInv crypto masterSeed s) {id : ℕ} {call : KmsCall} {now : ℤ}
    {out : Except Unit (Option Bytes)}
    (hclient : (KmsAction.answer id out).FromClient masterSeed) :
    KmsInv crypto masterSeed (s.decryptAnswered ttlMs id call now out) := by
  rcases out with _ | _ | _ | ⟨b, plaintext⟩
  · exact h.setCall trivial (by simp)
  · exact h.setCall trivial (by simp)
  · exact h.setCall trivial (by simp)
  · obtain hnil | rfl := hclient
    · cases hnil
    · have hstore : KmsInv crypto _ (s.storeSeed ttlMs now (b :: plaintext)) := h.storeSeed now
      refine hstore.setCall trivial fun call' buffer heq => ?_
      obtain ⟨-, rfl⟩ := KmsCallState.seedReady.inj heq
      exact hstore.cached _ rfl

/-- The continuation of `deriveKey`. -/
lemma KmsInv.deriveKeyResumed (h : KmsInv crypto masterSeed s) {id : ℕ} {call : KmsCall}
    {buffer : ℕ} (hcall : s.calls id = some (.seedReady call buffer)) :
    KmsInv crypto masterSeed (s.deriveKeyResumed crypto id call buffer) := by
  obtain ⟨-, hseed⟩ := h.held id buffer ⟨call, hcall⟩
  rw [KmsState.deriveKeyResumed, hseed]
  cases hkey : call.keyRequest.derive crypto masterSeed with
  | ok key => exact h.setCall ⟨rfl, hkey⟩ (by simp)
  | error e => exact h.setCall trivial (by simp)

/-- Every safe step keeps the invariant. -/
lemma KmsInv.step (h : KmsInv crypto masterSeed s) {a : KmsAction} (hsafe : s.Safe a)
    (hclient : a.FromClient masterSeed) (hstep : s.Step crypto ttlMs a s') :
    KmsInv crypto masterSeed s' := by
  cases hstep with
  | tick _ => exact ⟨⟨h.keys.derived, h.keys.returned⟩, h.held, h.cached⟩
  | start _ => exact h.start hsafe
  | answer _ => exact h.decryptAnswered hclient
  | resume hcall => exact h.deriveKeyResumed hcall
  | finish hcall =>
    obtain ⟨hseed, hkey⟩ := h.keys.derived _ _ _ _ hcall
    exact h.setCall ⟨hseed, _, hkey, rfl⟩ (by simp)

/-- **Keys do not depend on timing in safe runs.**  If no call starts while the cache has expired and
another call holds the cached buffer, every completed derivation used the master seed. -/
theorem keysFromSeed_of_safe
    (hs : ((kmsSystem crypto ttlSeconds masterSeed).restrict KmsState.Safe).Reachable s) :
    KeysFromSeed crypto masterSeed s := by
  refine (hs.invariant (I := KmsInv crypto masterSeed) ?_ ?_).keys
  · rintro s ⟨-, hcache, -, hcalls⟩
    constructor
    · constructor <;> simp [hcalls]
    · simp [KmsState.Holds, hcalls]
    · simp [hcache]
  · rintro s a s' - h ⟨hsafe, hclient, hstep⟩
    exact h.step hsafe hclient hstep

/-! ## The other runs -/

/-- A start that is not safe leaves a call that will read zeros. -/
theorem start_zeroes {id : ℕ} {call : KmsCall} (hfree : s.calls id = none)
    (h : ¬s.Safe (.start id call)) :
    ∃ i buffer, (s.start id call).Holds i buffer ∧
      (s.start id call).heap buffer = List.replicate (s.heap buffer).length 0 := by
  simp only [KmsState.Safe, not_forall, not_not] at h
  obtain ⟨hvalidate, hexpired, buffer, hbuffer, i, call', hi⟩ := h
  have hcached : s.cachedSeed = none := by
    simp [KmsState.cachedSeed, hbuffer, hexpired]
  have hne : i ≠ id := by
    rintro rfl
    cases hfree.symm.trans hi
  refine ⟨i, buffer, ⟨call', ?_⟩, ?_⟩
  · simp [KmsState.start, hvalidate, KmsState.getMasterSeed, hcached, KmsState.setCall_calls, hne,
      hi]
  · simp [KmsState.start, hvalidate, KmsState.getMasterSeed, hcached, KmsState.clearSeedCache,
      hbuffer]

/-- Primitives for the sample runs: the derived key is the seed, and so is the tag under it. -/
def sampleNodeCrypto : NodeCrypto where
  hkdfSync seed _ _ _ := .ok seed
  createHmac key _ := key
  aes256GcmEncrypt _ _ plaintext := (plaintext, [])
  aes256GcmDecrypt _ _ _ ciphertext := some ciphertext

/-- A new adapter. -/
def sampleKms : KmsState := ⟨0, fun _ => [], 0, none, 0, fun _ => none⟩

/-- The call that signs an audit event. -/
def sampleSign : KmsCall := .hmacSha256 .auditHmac "org" "key" 1 []

/-- A first call fills the cache in a safe run, and its key is derived from the seed. -/
theorem keysFromSeed_of_safe_sample : ∃ s : KmsState,
    s.calls 0 = some (.keyReady sampleSign [1] [1]) ∧ KeysFromSeed sampleNodeCrypto [1] s := by
  have h₀ : ((kmsSystem sampleNodeCrypto 1 [1]).restrict KmsState.Safe).Reachable sampleKms :=
    .init ⟨Nat.one_pos, rfl, rfl, fun _ => rfl⟩
  have hsafe : sampleKms.Safe (.start 0 sampleSign) := by
    rintro - - buffer hbuffer
    cases hbuffer
  have h₁ := h₀.next (.start 0 sampleSign) ⟨hsafe, trivial, .start rfl⟩
  have h₂ := h₁.next (.answer 0 (.ok (some [1]))) ⟨trivial, .inr rfl, .answer rfl⟩
  have h₃ := h₂.next (.resume 0) ⟨trivial, trivial, .resume rfl⟩
  exact ⟨_, rfl, keysFromSeed_of_safe h₃⟩

/-- With a cache window of one second, the second call receives the cached buffer at 999 ms, the
third call starts at 1000 ms and zeroes it, and the second call signs with a key derived from
zeros. -/
theorem keysFromSeed_fails : ∃ s, (kmsSystem sampleNodeCrypto 1 [1]).Reachable s ∧
    s.calls 1 = some (.done sampleSign [0] (.ok (.bytes [0]))) ∧
    ¬KeysFromSeed sampleNodeCrypto [1] s := by
  have h₀ : (kmsSystem sampleNodeCrypto 1 [1]).Reachable sampleKms :=
    .init ⟨Nat.one_pos, rfl, rfl, fun _ => rfl⟩
  have h₁ := h₀.next (.start 0 sampleSign) ⟨trivial, .start rfl⟩
  have h₂ := h₁.next (.answer 0 (.ok (some [1]))) ⟨.inr rfl, .answer rfl⟩
  have h₃ := h₂.next (.resume 0) ⟨trivial, .resume rfl⟩
  have h₄ := h₃.next (.tick 999) ⟨trivial, .tick (by decide)⟩
  have h₅ := h₄.next (.start 1 sampleSign) ⟨trivial, .start rfl⟩
  have h₆ := h₅.next (.tick 1000) ⟨trivial, .tick (by decide)⟩
  have h₇ := h₆.next (.start 2 sampleSign) ⟨trivial, .start rfl⟩
  have h₈ := h₇.next (.resume 1) ⟨trivial, .resume rfl⟩
  have h₉ := h₈.next (.finish 1) ⟨trivial, .finish rfl⟩
  refine ⟨_, h₉, rfl, fun hkeys => ?_⟩
  obtain ⟨hseed, -⟩ := hkeys.returned 1 _ _ _ rfl
  exact absurd hseed (by decide)

end GovAI
