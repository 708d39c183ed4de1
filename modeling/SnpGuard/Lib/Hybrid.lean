/-
Hybrid encryption with ideal primitives, and what an adversary can learn from it.

Two parties agree on a secret from one's private and the other's public key, and
wrap a plaintext under that secret and a nonce.  `Ideal` is the symbolic reading of
the primitives: an agreed secret belongs to one pair of keys, and a wrapped text
opens under nothing but the secret and nonce it was wrapped with.

An adversary holds some private keys, has seen some ciphertexts and was told some
plaintexts.  It knows a secret when it can agree on it with a key it holds, and a
plaintext when it was told it or can open a ciphertext it has seen.  The rule the
protocol proofs rest on is `not_knowsSecret`: two parties that both keep their
private key share a secret the adversary does not know.
-/
import Mathlib.Data.Set.Basic

/-- Key agreement and wrapping, known by their results. -/
structure Hybrid where
  Priv : Type
  Pub : Type
  Secret : Type
  Nonce : Type
  Plain : Type
  Cipher : Type
  pub : Priv → Pub
  agree : Priv → Pub → Option Secret
  wrap : Secret → Nonce → Plain → Option Cipher
  unwrap : Secret → Nonce → Cipher → Option Plain

namespace Hybrid

/-- The primitives as ideal functions. -/
structure Ideal (H : Hybrid) : Prop where
  pub_injective : ∀ {a b}, H.pub a = H.pub b → a = b
  agree_pub : ∀ a b, ∃ s, H.agree a (H.pub b) = some s ∧ H.agree b (H.pub a) = some s
  /-- A secret belongs to the pair of keys it was agreed with. -/
  agree_injective : ∀ {a b c B s}, H.agree a (H.pub b) = some s → H.agree c B = some s →
    (c = a ∧ B = H.pub b) ∨ (c = b ∧ B = H.pub a)
  unwrap_iff : ∀ {s n w p}, H.unwrap s n w = some p ↔ H.wrap s n p = some w
  wrap_injective : ∀ {s n p s' n' p' w}, H.wrap s n p = some w → H.wrap s' n' p' = some w →
    s = s' ∧ n = n' ∧ p = p'

variable {H : Hybrid}

/-- A wrapped text opens only under the secret and nonce it was wrapped with. -/
theorem Ideal.opens_only (hI : H.Ideal) {s s' : H.Secret} {n n' : H.Nonce}
    {p p' : H.Plain} {w : H.Cipher} (hw : H.wrap s n p = some w)
    (hu : H.unwrap s' n' w = some p') : s' = s ∧ n' = n ∧ p' = p :=
  hI.wrap_injective (hI.unwrap_iff.mp hu) hw

/-- What the adversary was given: private keys, ciphertexts, plaintexts. -/
structure Knowledge (H : Hybrid) where
  keys : Set H.Priv
  seen : Set H.Cipher
  told : Set H.Plain

namespace Knowledge

variable {K K' : Knowledge H}

/-- The adversary can agree on the secret with a key it holds. -/
def KnowsSecret (K : Knowledge H) (s : H.Secret) : Prop :=
  ∃ a ∈ K.keys, ∃ B, H.agree a B = some s

/-- The adversary was told the plaintext or can open a ciphertext to it. -/
def KnowsPlain (K : Knowledge H) (p : H.Plain) : Prop :=
  p ∈ K.told ∨ ∃ s n, ∃ w ∈ K.seen, K.KnowsSecret s ∧ H.unwrap s n w = some p

/-- The adversary can send `w`: it has seen it, or whatever `w` opens to and the
secret it opens under are known to it. -/
def CanSend (K : Knowledge H) (w : H.Cipher) : Prop :=
  w ∈ K.seen ∨ ∀ s n p, H.unwrap s n w = some p → K.KnowsSecret s ∧ K.KnowsPlain p

/-- More of everything. -/
structure Le (K K' : Knowledge H) : Prop where
  keys : K.keys ⊆ K'.keys
  seen : K.seen ⊆ K'.seen
  told : K.told ⊆ K'.told

/-- **A secret between two keys the adversary does not hold is unknown to it.** -/
theorem not_knowsSecret (hI : H.Ideal) {a b : H.Priv} (ha : a ∉ K.keys) (hb : b ∉ K.keys)
    {s : H.Secret} (hs : H.agree a (H.pub b) = some s) : ¬ K.KnowsSecret s := by
  rintro ⟨c, hc, B, hB⟩
  rcases hI.agree_injective hs hB with ⟨rfl, -⟩ | ⟨rfl, -⟩
  · exact ha hc
  · exact hb hc

/-- What the adversary sends and somebody opens was seen before or is its own. -/
theorem CanSend.opened {w : H.Cipher} (h : K.CanSend w) {s : H.Secret} {n : H.Nonce}
    {p : H.Plain} (hopen : H.unwrap s n w = some p) (hs : ¬ K.KnowsSecret s) :
    w ∈ K.seen := by
  rcases h with h | h
  · exact h
  · exact absurd (h s n p hopen).1 hs

end Knowledge

end Hybrid
