/-
The cryptography of the `ring` crate, by its results.

The attestation server and the client use four things of `ring`: X25519 key pairs
and agreement, HKDF-SHA512, and AES-256-GCM.  The model takes them as parameters:
`Ring` lists the calls the code makes, and what the code does around them is in
`SnpGuard/ReqResp.lean`.

`Ring.Correct` says that the two sides of a session undo each other's work, which is what
honest runs need.  `Ring.Ideal` is the symbolic reading of the primitives that secrecy and
agreement assume; the server's own control flow needs neither.  `Ring.toy` satisfies the
laws, so they do not contradict each other, and lets runs be evaluated.
-/
import Mathlib.Data.List.Infix
import SnpGuard.Lib.Format

namespace SnpGuard

/-- The calls into `ring`. -/
structure Ring where
  /-- `agreement::EphemeralPrivateKey` on X25519. -/
  PrivateKey : Type
  /-- `aead::UnboundKey` for `AES_256_GCM`. -/
  UnboundKey : Type
  /-- `EphemeralPrivateKey::compute_public_key`. -/
  computePublicKey : PrivateKey → Block 32
  /-- `agreement::agree_ephemeral`: the shared secret handed to its closure. -/
  agreeEphemeral : PrivateKey → Block 32 → Option Bytes
  /-- `Salt::new(HKDF_SHA512, salt)`, `extract(secret)`, `expand(info)` and `fill`. -/
  hkdfSha512 : (salt secret info : Bytes) → Option Bytes
  /-- `UnboundKey::new(&AES_256_GCM, key)`. -/
  unboundKey : Bytes → Option UnboundKey
  /-- `seal_in_place_separate_tag`: the ciphertext and the tag. -/
  sealInPlace : UnboundKey → Block 12 → (aad plaintext : Bytes) → Option (Bytes × Bytes)
  /-- `open_in_place` on ciphertext and tag. -/
  openInPlace : UnboundKey → Block 12 → (aad cipherTextWithTag : Bytes) → Option Bytes

namespace Ring

/-- The longest plaintext AES-256-GCM seals. -/
def maxPlaintextLen : Nat := (2 ^ 32 - 2) * 16

/-- The primitives as ideal functions. -/
structure Ideal (R : Ring) : Prop where
  computePublicKey_injective : ∀ {a b}, R.computePublicKey a = R.computePublicKey b → a = b
  agree_public : ∀ a b, ∃ s, R.agreeEphemeral a (R.computePublicKey b) = some s ∧
    R.agreeEphemeral b (R.computePublicKey a) = some s
  agree_injective : ∀ {a b c B s}, R.agreeEphemeral a (R.computePublicKey b) = some s →
    R.agreeEphemeral c B = some s →
    (c = a ∧ B = R.computePublicKey b) ∨ (c = b ∧ B = R.computePublicKey a)
  /-- Deriving a key never fails. -/
  key_exists : ∀ (salt : Block 8) secret info, ∃ key k,
    R.hkdfSha512 salt.bytes secret info = some key ∧ R.unboundKey key = some k
  hkdf_injective : ∀ {salt salt' : Block 8} {secret secret' info key},
    R.hkdfSha512 salt.bytes secret info = some key →
    R.hkdfSha512 salt'.bytes secret' info = some key → salt = salt' ∧ secret = secret'
  unboundKey_injective : ∀ {key key' k}, R.unboundKey key = some k →
    R.unboundKey key' = some k → key = key'
  seal_exists : ∀ k n aad p, p.length ≤ maxPlaintextLen →
    ∃ c t, R.sealInPlace k n aad p = some (c, t)
  /-- Opening succeeds on what was sealed with the same key and nonce, and on nothing else. -/
  open_iff : ∀ {k n aad w p}, R.openInPlace k n aad w = some p ↔
    ∃ c t, R.sealInPlace k n aad p = some (c, t) ∧ w = c ++ t
  seal_injective : ∀ {k n aad p c t k' n' aad' p' c' t'},
    R.sealInPlace k n aad p = some (c, t) → R.sealInPlace k' n' aad' p' = some (c', t') →
    c ++ t = c' ++ t' → k = k' ∧ n = n' ∧ p = p'

/-- What HKDF and AES-256-GCM do under one key and one nonce. -/
structure Works (R : Ring) : Prop where
  key_exists : ∀ (salt : Block 8) secret info, ∃ key k,
    R.hkdfSha512 salt.bytes secret info = some key ∧ R.unboundKey key = some k
  seal_exists : ∀ k n aad p, p.length ≤ maxPlaintextLen →
    ∃ c t, R.sealInPlace k n aad p = some (c, t)
  open_iff : ∀ {k n aad w p}, R.openInPlace k n aad w = some p ↔
    ∃ c t, R.sealInPlace k n aad p = some (c, t) ∧ w = c ++ t

theorem Ideal.works {R : Ring} (hR : R.Ideal) : R.Works :=
  ⟨hR.key_exists, hR.seal_exists, hR.open_iff⟩

/-- X25519 agrees on both sides as well. -/
structure Correct (R : Ring) : Prop extends R.Works where
  agree_public : ∀ a b, ∃ s, R.agreeEphemeral a (R.computePublicKey b) = some s ∧
    R.agreeEphemeral b (R.computePublicKey a) = some s

theorem Ideal.correct {R : Ring} (hR : R.Ideal) : R.Correct := ⟨hR.works, hR.agree_public⟩

/-! ### A model of the laws -/

/-- A key pair of the toy instance: its public key is the base point of X25519. -/
def toyKey : Block 32 := ⟨Bytes.ofNatLE 32 9, by simp⟩

/-- What a toy ciphertext starts with. -/
def toyHeader (key : Bytes) (nonce : Block 12) : Bytes := Format.bytes.write key ++ nonce.bytes

/-- The tag of every toy ciphertext. -/
def toyTag : Bytes := List.replicate 16 0

/-- Primitives that satisfy the laws and can be evaluated. -/
def toy : Ring where
  PrivateKey := Block 32
  UnboundKey := Bytes
  computePublicKey a := a
  agreeEphemeral a B := some (Bytes.ofNatLE 32 (min a.toNat B.toNat) ++
    Bytes.ofNatLE 32 (max a.toNat B.toNat))
  hkdfSha512 salt secret _ := some (salt ++ secret)
  unboundKey key := some key
  sealInPlace key nonce _ p := some (toyHeader key nonce ++ p, toyTag)
  openInPlace key nonce _ w :=
    let body := w.drop (toyHeader key nonce).length
    if toyHeader key nonce <+: w ∧ toyTag <:+ body then
      some (body.take (body.length - toyTag.length))
    else none

theorem toyAgree_injective {a b c B : Block 32}
    (h : Bytes.ofNatLE 32 (min a.toNat b.toNat) ++ Bytes.ofNatLE 32 (max a.toNat b.toNat)
      = Bytes.ofNatLE 32 (min c.toNat B.toNat) ++ Bytes.ofNatLE 32 (max c.toNat B.toNat)) :
    (c = a ∧ B = b) ∨ (c = b ∧ B = a) := by
  obtain ⟨hmin, hmax⟩ := List.append_inj h (by simp)
  have ha := a.toNat_lt
  have hb := b.toNat_lt
  have hc := c.toNat_lt
  have hB := B.toNat_lt
  have hmin' := Bytes.ofNatLE_injective (by omega) (by omega) hmin
  have hmax' := Bytes.ofNatLE_injective (by omega) (by omega) hmax
  have hcases : (c.toNat = a.toNat ∧ B.toNat = b.toNat) ∨
      (c.toNat = b.toNat ∧ B.toNat = a.toNat) := by omega
  rcases hcases with ⟨h1, h2⟩ | ⟨h1, h2⟩
  · exact Or.inl ⟨Block.toNat_injective h1, Block.toNat_injective h2⟩
  · exact Or.inr ⟨Block.toNat_injective h1, Block.toNat_injective h2⟩

theorem toy_open_iff (key : Bytes) (nonce : Block 12) (w p : Bytes) :
    toy.openInPlace key nonce [] w = some p ↔ w = toyHeader key nonce ++ p ++ toyTag := by
  simp only [toy]
  constructor
  · intro h
    split at h
    · rename_i hcond
      obtain ⟨⟨body, rfl⟩, hsuffix⟩ := hcond
      rw [List.drop_left] at h hsuffix
      obtain ⟨q, rfl⟩ := hsuffix
      simp only [List.length_append, Nat.add_sub_cancel, List.take_left,
        Option.some.injEq] at h
      rw [h, List.append_assoc]
    · simp at h
  · rintro rfl
    have hdrop : (toyHeader key nonce ++ p ++ toyTag).drop (toyHeader key nonce).length
        = p ++ toyTag := by
      rw [List.append_assoc, List.drop_left]
    rw [hdrop, if_pos ⟨⟨p ++ toyTag, by rw [List.append_assoc]⟩, ⟨p, rfl⟩⟩]
    simp

/-- **The ideal laws are consistent.** -/
theorem toy_ideal : toy.Ideal where
  computePublicKey_injective h := h
  agree_public a b := ⟨_, rfl, by simp [toy, min_comm, max_comm]⟩
  agree_injective hab hcB := by
    simp only [toy, Option.some.injEq] at hab hcB
    exact toyAgree_injective (hab.trans hcB.symm)
  key_exists salt secret info := ⟨_, _, rfl, rfl⟩
  hkdf_injective {salt salt' _ _ _ _} h h' := by
    simp only [toy, Option.some.injEq] at h h'
    obtain ⟨hsalt, hsecret⟩ := List.append_inj (h.trans h'.symm) (by simp)
    exact ⟨Block.ext hsalt, hsecret⟩
  unboundKey_injective h h' := Option.some.inj (h.trans h'.symm)
  seal_exists k n aad p _ := ⟨_, _, rfl⟩
  open_iff {k n aad w p} := by
    refine (toy_open_iff k n w p).trans ?_
    simp [toy]
  seal_injective {k n aad p c t k' n' aad' p' c' t'} h h' heq := by
    simp only [toy, Option.some.injEq, Prod.mk.injEq] at h h'
    obtain ⟨rfl, rfl⟩ := h
    obtain ⟨rfl, rfl⟩ := h'
    rw [List.append_cancel_right_eq] at heq
    simp only [toyHeader, List.append_assoc] at heq
    obtain ⟨hk, hrest⟩ := Format.bytes.write_append_injective heq
    obtain ⟨hn, hp⟩ := List.append_inj hrest (by simp)
    exact ⟨hk, Block.ext hn, hp⟩

end Ring

end SnpGuard
