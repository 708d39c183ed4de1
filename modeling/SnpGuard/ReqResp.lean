/-
Requests, responses and key wrapping: `req_resp_ds.rs`.

`aead_enc` and `aead_dec` derive one AES key from the shared secret with the
attested nonce as salt, start a counter at that nonce and seal or open once.  The
two read the same way (`aeadEnc_eq_ok`, `aeadDec_eq_ok`): derive the key, advance
the counter, call `ring`.  The counter is a `u64` that is incremented on each call,
and a debug build checks the addition, so the largest nonce makes both functions
panic (`aeadDec_isPanic`).

With ideal primitives the two are hybrid encryption in the sense of
`SnpGuard/Lib/Hybrid.lean` (`hybrid_ideal`), and that is all the protocol proofs
use of them.
-/
import SnpGuard.Lib.Hybrid
import SnpGuard.Lib.Outcome
import SnpGuard.Ring

namespace SnpGuard

/-- `u64::MAX`. -/
def u64Max : UInt64 := 0xFFFFFFFFFFFFFFFF

structure AttestationRequest where
  nonce : UInt64
deriving DecidableEq

structure WrappedDiskKey where
  wrappedDiskKey : Bytes
  clientPublicKey : Block 32
deriving DecidableEq

/-- `ring::error::Unspecified`. -/
abbrev Unspecified := Unit

structure CounterNonceSequence where
  counter : UInt64

namespace CounterNonceSequence

/-- The counter in big-endian order, and four zero bytes. -/
def nonceBytes (seq : CounterNonceSequence) : Block 12 :=
  ⟨(Bytes.u64ToBE seq.counter).bytes ++ List.replicate 4 0, by simp⟩

/-- `NonceSequence::advance`; `self.0 += 1` is checked in a debug build. -/
def advance (seq : CounterNonceSequence) :
    Outcome Unspecified (Block 12 × CounterNonceSequence) :=
  if seq.counter = u64Max then
    Outcome.crash "attempt to add with overflow"
  else
    .ok (seq.nonceBytes, ⟨seq.counter + 1⟩)

theorem advance_of_ne {seq : CounterNonceSequence} (h : seq.counter ≠ u64Max) :
    seq.advance = .ok (seq.nonceBytes, ⟨seq.counter + 1⟩) := if_neg h

theorem nonceBytes_injective {a b : UInt64}
    (h : nonceBytes ⟨a⟩ = nonceBytes ⟨b⟩) : a = b := by
  apply Bytes.u64ToBE_injective
  apply Block.ext
  have hbytes := congrArg Block.bytes h
  exact (List.append_inj hbytes (by simp)).1

end CounterNonceSequence

variable (R : Ring)

/-- `derive_keys`, with the info string `aes_key`. -/
def deriveKeys (sharedSecret : Bytes) (nonceFromReport : UInt64) : Outcome Whatever Bytes :=
  Outcome.ofOption
    (R.hkdfSha512 (Bytes.u64ToLE nonceFromReport).bytes sharedSecret (Bytes.ofString "aes_key"))
    "failed to expand key material for AES_256_GCM using HKDF"

/-- `aead_enc`: ciphertext and tag. -/
def aeadEnc (sharedSecret : Bytes) (nonceFromReport : UInt64) (plaintext : Bytes) :
    Outcome Whatever Bytes := do
  let aesKey ← Outcome.context "failed to derive AES key from shared secret"
    (deriveKeys R sharedSecret nonceFromReport)
  let unboundKey ← Outcome.ofOption (R.unboundKey aesKey)
    "failed to parse AES key into internal data structure"
  let (nonce, _) ← Outcome.context "failed to encrpyt data"
    (CounterNonceSequence.advance ⟨nonceFromReport⟩)
  let (ciphertext, tag) ← Outcome.ofOption (R.sealInPlace unboundKey nonce [] plaintext)
    "failed to encrpyt data"
  return ciphertext ++ tag

/-- `aead_dec`: the plaintext. -/
def aeadDec (sharedSecret : Bytes) (nonceFromReport : UInt64) (cipherTextWithTag : Bytes) :
    Outcome Whatever Bytes := do
  let aesKey ← Outcome.context "failed to derive AES key from shared secret"
    (deriveKeys R sharedSecret nonceFromReport)
  let unboundKey ← Outcome.ofOption (R.unboundKey aesKey)
    "failed to parse AES key into internal data structure"
  let (nonce, _) ← Outcome.context "failed to derypt data"
    (CounterNonceSequence.advance ⟨nonceFromReport⟩)
  Outcome.ofOption (R.openInPlace unboundKey nonce [] cipherTextWithTag) "failed to derypt data"

variable {R}

/-! ### One session, one key and one nonce -/

/-- The key both functions work with. -/
def SessionKey (R : Ring) (sharedSecret : Bytes) (nonceFromReport : UInt64)
    (k : R.UnboundKey) : Prop :=
  ∃ key, R.hkdfSha512 (Bytes.u64ToLE nonceFromReport).bytes sharedSecret
    (Bytes.ofString "aes_key") = some key ∧ R.unboundKey key = some k

theorem advance_eq_ok {nonce : UInt64} {r : Block 12 × CounterNonceSequence} :
    CounterNonceSequence.advance ⟨nonce⟩ = .ok r ↔
      nonce ≠ u64Max ∧ r = (CounterNonceSequence.nonceBytes ⟨nonce⟩, ⟨nonce + 1⟩) := by
  by_cases h : nonce = u64Max
  · simp [CounterNonceSequence.advance, h]
  · rw [CounterNonceSequence.advance_of_ne h]
    simp [h, eq_comm]

theorem aeadEnc_eq_ok {s : Bytes} {n : UInt64} {p w : Bytes} :
    aeadEnc R s n p = .ok w ↔ n ≠ u64Max ∧ ∃ k, SessionKey R s n k ∧ ∃ c t,
      R.sealInPlace k (CounterNonceSequence.nonceBytes ⟨n⟩) [] p = some (c, t) ∧ w = c ++ t := by
  simp only [aeadEnc, Outcome.ok_of_bind, Outcome.context_eq_ok, deriveKeys,
    Outcome.ofOption_eq_ok, advance_eq_ok, SessionKey, Outcome.pure_eq_ok, Except.ok.injEq]
  constructor
  · rintro ⟨key, hkey, k, hk, ⟨b, seq⟩, ⟨hn, hb⟩, ⟨c, t⟩, hseal, rfl⟩
    obtain ⟨rfl, -⟩ := Prod.mk.inj hb
    exact ⟨hn, k, ⟨key, hkey, hk⟩, c, t, hseal, rfl⟩
  · rintro ⟨hn, k, ⟨key, hkey, hk⟩, c, t, hseal, rfl⟩
    exact ⟨key, hkey, k, hk, _, ⟨hn, rfl⟩, (c, t), hseal, rfl⟩

theorem aeadDec_eq_ok {s : Bytes} {n : UInt64} {w p : Bytes} :
    aeadDec R s n w = .ok p ↔ n ≠ u64Max ∧ ∃ k, SessionKey R s n k ∧
      R.openInPlace k (CounterNonceSequence.nonceBytes ⟨n⟩) [] w = some p := by
  simp only [aeadDec, Outcome.ok_of_bind, Outcome.context_eq_ok, deriveKeys,
    Outcome.ofOption_eq_ok, advance_eq_ok, SessionKey]
  constructor
  · rintro ⟨key, hkey, k, hk, ⟨b, seq⟩, ⟨hn, hb⟩, hopen⟩
    obtain ⟨rfl, -⟩ := Prod.mk.inj hb
    exact ⟨hn, k, ⟨key, hkey, hk⟩, hopen⟩
  · rintro ⟨hn, k, ⟨key, hkey, hk⟩, hopen⟩
    exact ⟨key, hkey, k, hk, _, ⟨hn, rfl⟩, hopen⟩

/-- Decryption panics exactly when it gets as far as a counter that starts at the top. -/
theorem aeadDec_isPanic {s : Bytes} {n : UInt64} {w : Bytes} :
    (aeadDec R s n w).isPanic = true ↔ n = u64Max ∧ ∃ k, SessionKey R s n k := by
  simp only [aeadDec, Outcome.isPanic_bind, Outcome.isPanic_context, Outcome.context_eq_ok,
    deriveKeys, Outcome.isPanic_ofOption, Outcome.ofOption_eq_ok, SessionKey]
  by_cases hn : n = u64Max
  · subst hn
    simp only [CounterNonceSequence.advance, if_pos, Outcome.isPanic_crash, true_or,
      Bool.false_eq_true, false_or, and_true, true_and]
    refine ⟨?_, ?_⟩
    · intro h
      obtain ⟨key, hkey, k, hk⟩ := h
      exact ⟨k, key, hkey, hk⟩
    · intro h
      obtain ⟨k, key, hkey, hk⟩ := h
      exact ⟨key, hkey, k, hk⟩
  · simp [CounterNonceSequence.advance, hn]

/-! ### Ideal primitives make it hybrid encryption -/

/-- Key agreement and wrapping as the code uses them. -/
abbrev hybrid (R : Ring) : Hybrid where
  Priv := R.PrivateKey
  Pub := Block 32
  Secret := Bytes
  Nonce := UInt64
  Plain := Bytes
  Cipher := Bytes
  pub := R.computePublicKey
  agree := R.agreeEphemeral
  wrap s n p := (aeadEnc R s n p).toOption
  unwrap s n w := (aeadDec R s n w).toOption

theorem toOption_eq_some {ε α : Type} {x : Except ε α} {a : α} :
    x.toOption = some a ↔ x = .ok a := by
  cases x <;> simp [Except.toOption]

theorem sessionKey_injective (hR : R.Ideal) {s s' : Bytes} {n n' : UInt64} {k : R.UnboundKey}
    (h : SessionKey R s n k) (h' : SessionKey R s' n' k) : s = s' ∧ n = n' := by
  obtain ⟨key, hkey, hk⟩ := h
  obtain ⟨key', hkey', hk'⟩ := h'
  have heq := hR.unboundKey_injective hk hk'
  subst heq
  obtain ⟨hsalt, hs⟩ := hR.hkdf_injective hkey hkey'
  exact ⟨hs, Bytes.u64ToLE_injective hsalt⟩

/-- Opening succeeds on what was wrapped under the same secret and nonce, only. -/
theorem aeadDec_iff_of_works (hR : R.Works) {s : Bytes} {n : UInt64} {w p : Bytes} :
    aeadDec R s n w = .ok p ↔ aeadEnc R s n p = .ok w := by
  rw [aeadDec_eq_ok, aeadEnc_eq_ok]
  simp only [hR.open_iff]

theorem aeadDec_iff (hR : R.Ideal) {s : Bytes} {n : UInt64} {w p : Bytes} :
    aeadDec R s n w = .ok p ↔ aeadEnc R s n p = .ok w := aeadDec_iff_of_works hR.works

theorem aeadEnc_injective (hR : R.Ideal) {s s' : Bytes} {n n' : UInt64} {p p' w : Bytes}
    (h : aeadEnc R s n p = .ok w) (h' : aeadEnc R s' n' p' = .ok w) :
    s = s' ∧ n = n' ∧ p = p' := by
  obtain ⟨-, k, hk, c, t, hseal, rfl⟩ := aeadEnc_eq_ok.mp h
  obtain ⟨-, k', hk', c', t', hseal', heq⟩ := aeadEnc_eq_ok.mp h'
  obtain ⟨rfl, -, hp⟩ := hR.seal_injective hseal hseal' heq
  obtain ⟨hs, hn⟩ := sessionKey_injective hR hk hk'
  exact ⟨hs, hn, hp⟩

/-- Below the top of the counter, every plaintext `ring` takes is wrapped. -/
theorem aeadEnc_exists_of_works (hR : R.Works) (s : Bytes) {n : UInt64} (hn : n ≠ u64Max)
    {p : Bytes} (hp : p.length ≤ Ring.maxPlaintextLen) : ∃ w, aeadEnc R s n p = .ok w := by
  obtain ⟨key, k, hkey, hk⟩ := hR.key_exists (Bytes.u64ToLE n) s (Bytes.ofString "aes_key")
  obtain ⟨c, t, hseal⟩ := hR.seal_exists k (CounterNonceSequence.nonceBytes ⟨n⟩) [] p hp
  exact ⟨c ++ t, aeadEnc_eq_ok.mpr ⟨hn, k, ⟨key, hkey, hk⟩, c, t, hseal, rfl⟩⟩

theorem aeadEnc_exists (hR : R.Ideal) (s : Bytes) {n : UInt64} (hn : n ≠ u64Max) {p : Bytes}
    (hp : p.length ≤ Ring.maxPlaintextLen) : ∃ w, aeadEnc R s n p = .ok w :=
  aeadEnc_exists_of_works hR.works s hn hp

/-- **With ideal primitives the protocol's key wrapping is ideal hybrid encryption.** -/
theorem hybrid_ideal (hR : R.Ideal) : (hybrid R).Ideal where
  pub_injective := hR.computePublicKey_injective
  agree_pub := hR.agree_public
  agree_injective := hR.agree_injective
  unwrap_iff {s n w p} := by
    show (aeadDec R s n w).toOption = some p ↔ (aeadEnc R s n p).toOption = some w
    rw [toOption_eq_some, toOption_eq_some]
    exact aeadDec_iff hR
  wrap_injective {s n p s' n' p' w} h h' :=
    aeadEnc_injective hR (toOption_eq_some.mp h) (toOption_eq_some.mp h')

end SnpGuard
