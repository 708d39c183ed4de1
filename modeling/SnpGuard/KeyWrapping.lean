/-
Key wrapping as a codec: `aead_enc` against `aead_dec`.

That the two undo each other under one secret and one nonce needs no idealisation:
AES-256-GCM opens what it sealed under the same key and nonce, and nothing else
(`Ring.Gcm`).  That a wrapped key opens under no other secret or nonce is the ideal part,
and it cannot hold of everything at once: a tag has 16 bytes, and there are more secrets
than that (`Gcm.not_separatedOn_univ`).  So it is assumed for a set of uses, and the
results hold for whatever set it is assumed for.
-/
import Mathlib.Data.Fintype.EquivFin
import SnpGuard.ReqResp

namespace SnpGuard

namespace Ring

/-! ### What is relied on -/

/-- HKDF and AES-256-GCM as they are, sizes included. -/
structure Gcm (R : Ring) : Prop extends R.Works where
  seal_length : ∀ {k n aad p c t}, R.sealInPlace k n aad p = some (c, t) →
    c.length = p.length ∧ t.length = 16

/-- What a key is derived from, and the nonce it is used with. -/
structure Use where
  salt : Block 8
  secret : Bytes
  nonce : Block 12

/-- The key of a use. -/
def Use.Key (R : Ring) (u : Use) (info : Bytes) (k : R.UnboundKey) : Prop :=
  ∃ key, R.hkdfSha512 u.salt.bytes u.secret info = some key ∧ R.unboundKey key = some k

/-- The primitives are ideal as far as a set of uses is concerned: no two of them collide. -/
structure SeparatedOn (R : Ring) (uses : Set Use) : Prop where
  key_injective : ∀ {u u' info k}, u ∈ uses → u' ∈ uses → u.Key R info k → u'.Key R info k →
    u.salt = u'.salt ∧ u.secret = u'.secret
  /-- What one use sealed, another opens only with the same key and nonce. -/
  open_sealed : ∀ {u u' info k k' p c t q}, u ∈ uses → u' ∈ uses → u.Key R info k →
    u'.Key R info k' → R.sealInPlace k u.nonce [] p = some (c, t) →
    R.openInPlace k' u'.nonce [] (c ++ t) = some q → k' = k ∧ u'.nonce = u.nonce

/-- Primitives that are ideal without exception are ideal on every set of uses. -/
theorem Ideal.separatedOn {R : Ring} (hR : R.Ideal) (uses : Set Use) : R.SeparatedOn uses where
  key_injective := by
    intro u u' info k hu hu' hk hk'
    obtain ⟨key, hkey, hk⟩ := hk
    obtain ⟨key', hkey', hk'⟩ := hk'
    have heq := hR.unboundKey_injective hk hk'
    subst heq
    exact hR.hkdf_injective hkey hkey'
  open_sealed := by
    intro u u' info k k' p c t q hu hu' hk hk' hseal hopen
    obtain ⟨c', t', hseal', heq⟩ := hR.open_iff.mp hopen
    obtain ⟨hkey, hnonce, -⟩ := hR.seal_injective hseal hseal' heq
    exact ⟨hkey.symm, hnonce.symm⟩

/-- In a set of uses, what `u` sealed of one text opens under no other secret. -/
def SealedIn (R : Ring) (uses : Set Use) (u : Use) (p : Bytes) : Prop :=
  ∀ u' ∈ uses, ∀ {info k k' c t q}, u.Key R info k → u'.Key R info k' →
    R.sealInPlace k u.nonce [] p = some (c, t) →
    R.openInPlace k' u'.nonce [] (c ++ t) = some q → u'.secret = u.secret

theorem SeparatedOn.sealedIn {R : Ring} {uses : Set Use} (hsep : R.SeparatedOn uses) {u : Use}
    (hu : u ∈ uses) (p : Bytes) : R.SealedIn uses u p := by
  intro u' hu' info k k' c t q hk hk' hseal hopen
  obtain ⟨rfl, -⟩ := hsep.open_sealed hu hu' hk hk' hseal hopen
  exact (hsep.key_injective hu hu' hk hk').2.symm

namespace Gcm

variable {R : Ring}

/-- The use of the secret that is `m` zero bytes. -/
def zeros (m : Nat) : Use := ⟨Block.zero 8, List.replicate m 0, Block.zero 12⟩

/-- An empty text that was sealed is a tag. -/
theorem seal_nil (hR : R.Gcm) (u : Use) (info : Bytes) :
    ∃ k, u.Key R info k ∧ ∃ t : Block 16, R.sealInPlace k u.nonce [] [] = some ([], t.bytes) := by
  obtain ⟨key, k, hkey, hk⟩ := hR.key_exists u.salt u.secret info
  obtain ⟨c, t, hseal⟩ := hR.seal_exists k u.nonce [] [] (Nat.zero_le _)
  obtain ⟨hc, ht⟩ := hR.seal_length hseal
  rw [List.length_nil, List.length_eq_zero_iff] at hc
  subst hc
  exact ⟨k, ⟨key, hkey, hk⟩, ⟨t, ht⟩, hseal⟩

/-- **No primitives of these sizes are ideal for all secrets**: two of them share the tag of
the empty text. -/
theorem not_separatedOn_univ (hR : R.Gcm) : ¬ R.SeparatedOn Set.univ := by
  intro hsep
  choose k hkey t hseal using fun m => seal_nil hR (zeros m) []
  have hinjective : Function.Injective fun m =>
      (⟨(t m).toNat, (t m).toNat_lt⟩ : Fin (256 ^ 16)) := by
    intro m m' heq
    have htag : t m = t m' := Block.toNat_injective (Fin.mk.inj heq)
    have hopen : R.openInPlace (k m') (zeros m').nonce [] ([] ++ (t m).bytes) = some [] := by
      rw [htag]
      exact hR.open_iff.mpr ⟨_, _, hseal m', rfl⟩
    obtain ⟨hk, -⟩ := hsep.open_sealed (Set.mem_univ _) (Set.mem_univ _) (hkey m) (hkey m')
      (hseal m) hopen
    have hkey' := hkey m'
    rw [hk] at hkey'
    obtain ⟨-, hsecret⟩ := hsep.key_injective (Set.mem_univ _) (Set.mem_univ _) (hkey m) hkey'
    simpa [zeros] using congrArg List.length hsecret
  exact not_injective_infinite_finite _ hinjective

end Gcm

end Ring

/-! ### The codec -/

/-- What a session makes of its secret and its nonce. -/
def sessionUse (sharedSecret : Bytes) (nonce : UInt64) : Ring.Use where
  salt := Bytes.u64ToLE nonce
  secret := sharedSecret
  nonce := CounterNonceSequence.nonceBytes ⟨nonce⟩

variable {R : Ring}

theorem sessionKey_iff {s : Bytes} {n : UInt64} {k : R.UnboundKey} :
    SessionKey R s n k ↔ (sessionUse s n).Key R (Bytes.ofString "aes_key") k := Iff.rfl

/-- A wrapped key is as long as the key and its tag. -/
theorem aeadEnc_length (hR : R.Gcm) {s : Bytes} {n : UInt64} {p w : Bytes}
    (h : aeadEnc R s n p = .ok w) : w.length = p.length + 16 := by
  obtain ⟨-, k, -, c, t, hseal, rfl⟩ := aeadEnc_eq_ok.mp h
  obtain ⟨hc, ht⟩ := hR.seal_length hseal
  rw [List.length_append, hc, ht]

/-- **What one session wrapped, no other session opens.** -/
theorem session_of_opened {uses : Set Ring.Use} (hsep : R.SeparatedOn uses) {s s' : Bytes}
    {n n' : UInt64} (hu : sessionUse s n ∈ uses) (hu' : sessionUse s' n' ∈ uses) {p w q : Bytes}
    (henc : aeadEnc R s n p = .ok w) (hdec : aeadDec R s' n' w = .ok q) : s' = s ∧ n' = n := by
  obtain ⟨-, k, hk, c, t, hseal, rfl⟩ := aeadEnc_eq_ok.mp henc
  obtain ⟨-, k', hk', hopen⟩ := aeadDec_eq_ok.mp hdec
  rw [sessionKey_iff] at hk hk'
  obtain ⟨rfl, hnonce⟩ := hsep.open_sealed hu hu' hk hk' hseal hopen
  obtain ⟨-, hsecret⟩ := hsep.key_injective hu hu' hk hk'
  exact ⟨hsecret.symm, CounterNonceSequence.nonceBytes_injective hnonce⟩

/-- A session that opens what was wrapped for another one has its secret. -/
theorem secret_of_opened {uses : Set Ring.Use} {s s' : Bytes} {n n' : UInt64} {p w q : Bytes}
    (hsealed : R.SealedIn uses (sessionUse s n) p) (hu' : sessionUse s' n' ∈ uses)
    (henc : aeadEnc R s n p = .ok w) (hdec : aeadDec R s' n' w = .ok q) : s' = s := by
  obtain ⟨-, k, hk, c, t, hseal, rfl⟩ := aeadEnc_eq_ok.mp henc
  obtain ⟨-, k', hk', hopen⟩ := aeadDec_eq_ok.mp hdec
  exact hsealed _ hu' (sessionKey_iff.mp hk) (sessionKey_iff.mp hk') hseal hopen

/-- **`aead_dec` decodes what `aead_enc` encodes, and nothing else.**  Below the top of the
counter every plaintext that `ring` takes is wrapped, with sixteen bytes of tag; a byte string
opens to a plaintext exactly if that plaintext wraps to it; and what one session wrapped opens
in a session with the same secret and the same nonce only, to the text that was wrapped. -/
theorem keyWrapping_exact (hR : R.Gcm) {uses : Set Ring.Use} (hsep : R.SeparatedOn uses) :
    (∀ s n p, n ≠ u64Max → p.length ≤ Ring.maxPlaintextLen →
      ∃ w, aeadEnc R s n p = .ok w ∧ w.length = p.length + 16) ∧
    (∀ s n c p, aeadDec R s n c = .ok p ↔ aeadEnc R s n p = .ok c) ∧
    ∀ s s' n n' p w, sessionUse s n ∈ uses → sessionUse s' n' ∈ uses →
      aeadEnc R s n p = .ok w →
      ((∃ q, aeadDec R s' n' w = .ok q) ↔ s' = s ∧ n' = n) ∧
        ∀ q, aeadDec R s' n' w = .ok q → q = p := by
  refine ⟨?_, fun s n c p => aeadDec_iff_of_works hR.toWorks, ?_⟩
  · intro s n p hn hp
    obtain ⟨w, hw⟩ := aeadEnc_exists_of_works hR.toWorks s hn hp
    exact ⟨w, hw, aeadEnc_length hR hw⟩
  · intro s s' n n' p w hu hu' henc
    have hsame : aeadDec R s n w = .ok p := (aeadDec_iff_of_works hR.toWorks).mpr henc
    refine ⟨⟨?_, ?_⟩, ?_⟩
    · intro h
      obtain ⟨q, hq⟩ := h
      exact session_of_opened hsep hu hu' henc hq
    · intro h
      obtain ⟨rfl, rfl⟩ := h
      exact ⟨p, hsame⟩
    · intro q hq
      obtain ⟨rfl, rfl⟩ := session_of_opened hsep hu hu' henc hq
      rw [hsame, Except.ok.injEq] at hq
      exact hq.symm

/-! ### A cipher of the right sizes -/

namespace Ring

/-- The first eight bytes of the nonce and of the secret. -/
def tagOf (key : Bytes) (nonce : Block 12) : Block 16 :=
  ⟨nonce.bytes.take 8 ++ ((key.drop 8).take 8 ++ List.replicate (8 - (key.drop 8).length) 0), by
    simp; omega⟩

/-- A cipher that leaves the text as it is and puts the tag behind it. -/
def toyGcm : Ring :=
  { toy with
    hkdfSha512 := fun salt secret _ => some (salt ++ secret)
    UnboundKey := Bytes
    unboundKey := some
    sealInPlace := fun key nonce _ p => some (p, (tagOf key nonce).bytes)
    openInPlace := fun key nonce _ w =>
      if (tagOf key nonce).bytes <:+ w then some (w.take (w.length - 16)) else none }

theorem toyGcm_gcm : toyGcm.Gcm where
  key_exists salt secret info := ⟨_, _, rfl, rfl⟩
  seal_exists k n aad p _ := ⟨_, _, rfl⟩
  open_iff {k n aad w p} := by
    simp only [toyGcm, Option.some.injEq, Prod.mk.injEq]
    by_cases h : (tagOf k n).bytes <:+ w
    · obtain ⟨q, rfl⟩ := h
      rw [if_pos ⟨q, rfl⟩]
      simp [eq_comm]
    · rw [if_neg h]
      simp only [reduceCtorEq, false_iff]
      rintro ⟨c, t, ⟨rfl, rfl⟩, rfl⟩
      exact h ⟨p, rfl⟩
  seal_length {k n aad p c t} h := by
    simp only [toyGcm, Option.some.injEq, Prod.mk.injEq] at h
    obtain ⟨rfl, rfl⟩ := h
    exact ⟨rfl, (tagOf k n).length_eq⟩

/-- Sessions over secrets of 32 bytes that differ in their first eight. -/
def shortSecrets : Set Use :=
  {u | ∃ (head : Block 8) (n : UInt64), u = sessionUse (head.bytes ++ List.replicate 24 0) n}

theorem shortSecrets_key {head : Block 8} {n : UInt64} {info k : Bytes}
    (h : (sessionUse (head.bytes ++ List.replicate 24 0) n).Key toyGcm info k) :
    k = (Bytes.u64ToLE n).bytes ++ (head.bytes ++ List.replicate 24 0) := by
  obtain ⟨key, hkey, hk⟩ := h
  cases hkey
  cases hk
  rfl

theorem tagOf_shortSecrets (head : Block 8) (n : UInt64) :
    (tagOf ((Bytes.u64ToLE n).bytes ++ (head.bytes ++ List.replicate 24 0))
      (CounterNonceSequence.nonceBytes ⟨n⟩)).bytes = (Bytes.u64ToBE n).bytes ++ head.bytes := by
  have hnonce : (CounterNonceSequence.nonceBytes ⟨n⟩).bytes.take 8 = (Bytes.u64ToBE n).bytes :=
    List.take_left' (by simp)
  have hsecret : ((Bytes.u64ToLE n).bytes ++ (head.bytes ++ List.replicate 24 0)).drop 8
      = head.bytes ++ List.replicate 24 0 := List.drop_left' (by simp)
  have hhead : (head.bytes ++ List.replicate 24 0).take 8 = head.bytes :=
    List.take_left' (by simp)
  simp only [tagOf, hnonce, hsecret, hhead]
  simp

theorem toyGcm_separated : toyGcm.SeparatedOn shortSecrets where
  key_injective := by
    rintro _ _ info k ⟨head, n, rfl⟩ ⟨head', n', rfl⟩ hk hk'
    have hkeys := (shortSecrets_key hk).symm.trans (shortSecrets_key hk')
    obtain ⟨hsalt, hsecret⟩ := List.append_inj hkeys (by simp)
    exact ⟨Block.ext hsalt, hsecret⟩
  open_sealed := by
    rintro _ _ info k k' p c t q ⟨head, n, rfl⟩ ⟨head', n', rfl⟩ hk hk' hseal hopen
    obtain ⟨c', t', hseal', heq⟩ := toyGcm_gcm.open_iff.mp hopen
    have hk := shortSecrets_key hk
    have hk' := shortSecrets_key hk'
    subst hk hk'
    cases hseal
    cases hseal'
    have htag := (List.append_inj' heq (by simp)).2
    simp only [sessionUse, tagOf_shortSecrets] at htag
    obtain ⟨hn, hhead⟩ := List.append_inj htag (by simp)
    have hn : n = n' := Bytes.u64ToBE_injective (Block.ext hn)
    subst hn
    rw [hhead]
    exact ⟨rfl, rfl⟩

end Ring

/-- Two secrets, and a key that is wrapped under one of them. -/
theorem keyWrapping_exact_toy :
    ∃ w, aeadEnc Ring.toyGcm ((Block.zero 8).bytes ++ List.replicate 24 0) 7 [1, 2, 3] = .ok w ∧
      w.length = 19 ∧
      (∀ q, aeadDec Ring.toyGcm ((Block.zero 8).bytes ++ List.replicate 24 0) 8 w ≠ .ok q) ∧
      aeadDec Ring.toyGcm ((Block.zero 8).bytes ++ List.replicate 24 0) 7 w = .ok [1, 2, 3] := by
  obtain ⟨hwrap, hopen, hsession⟩ :=
    keyWrapping_exact Ring.toyGcm_gcm Ring.toyGcm_separated
  obtain ⟨w, henc, hlength⟩ := hwrap ((Block.zero 8).bytes ++ List.replicate 24 0) 7 [1, 2, 3]
    (by decide) (by decide)
  refine ⟨w, henc, hlength, ?_, (hopen _ _ _ _).mpr henc⟩
  intro q hq
  obtain ⟨-, hn⟩ := ((hsession _ _ _ 8 _ _ ⟨_, _, rfl⟩ ⟨_, _, rfl⟩ henc).1).mp ⟨q, hq⟩
  exact absurd hn (by decide)

end SnpGuard
