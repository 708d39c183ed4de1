/-
Byte strings, blocks of a fixed size and fixed-width integers.

Rust's `Vec<u8>` and `&[u8]` are lists of bytes here, and `[u8; n]` is `Block n`,
which carries its length.  What the development needs of integers is that writing
one out as `w` bytes and reading it back is the identity in both directions, and
of strings that `from_utf8` undoes `as_bytes`.
-/
import Mathlib.Algebra.Ring.Nat
import Mathlib.Data.List.Basic
import Mathlib.Data.List.DropRight

abbrev Bytes := List UInt8

namespace Bytes

/-! ### Integers as bytes -/

/-- The `w` low bytes of `n`, least significant first. -/
def ofNatLE : Nat → Nat → Bytes
  | 0, _ => []
  | w + 1, n => UInt8.ofNat n :: ofNatLE w (n / 256)

/-- The number a byte string spells, least significant byte first. -/
def toNatLE : Bytes → Nat
  | [] => 0
  | b :: bs => b.toNat + 256 * toNatLE bs

/-- The `w` low bytes of `n`, most significant first. -/
def ofNatBE (w n : Nat) : Bytes := (ofNatLE w n).reverse

@[simp] theorem length_ofNatLE (w : Nat) : ∀ n, (ofNatLE w n).length = w := by
  induction w with
  | zero => intro n; rfl
  | succ w ih => intro n; simp [ofNatLE, ih]

@[simp] theorem length_ofNatBE (w n : Nat) : (ofNatBE w n).length = w := by
  simp [ofNatBE]

theorem toNatLE_lt (bs : Bytes) : toNatLE bs < 256 ^ bs.length := by
  induction bs with
  | nil => simp [toNatLE]
  | cons b bs ih =>
      have hb : b.toNat < 256 := b.toNat_lt
      simp only [toNatLE, List.length_cons, Nat.pow_succ]
      omega

theorem toNatLE_ofNatLE (w : Nat) : ∀ n, n < 256 ^ w → toNatLE (ofNatLE w n) = n := by
  induction w with
  | zero => intro n hn; simp [ofNatLE, toNatLE] at hn ⊢; omega
  | succ w ih =>
      intro n hn
      have hdiv : n / 256 < 256 ^ w := by
        rw [Nat.pow_succ] at hn
        omega
      simp only [ofNatLE, toNatLE, ih _ hdiv, UInt8.toNat_ofNat']
      omega

theorem ofNatLE_toNatLE (bs : Bytes) : ofNatLE bs.length (toNatLE bs) = bs := by
  induction bs with
  | nil => rfl
  | cons b bs ih =>
      have hb : b.toNat < 256 := b.toNat_lt
      have hdiv : (b.toNat + 256 * toNatLE bs) / 256 = toNatLE bs := by omega
      have hmod : UInt8.ofNat (b.toNat + 256 * toNatLE bs) = b := by
        apply UInt8.toNat_inj.mp
        rw [UInt8.toNat_ofNat']
        omega
      simp only [List.length_cons, ofNatLE, toNatLE, hdiv, hmod, ih]

theorem ofNatLE_injective {w m n : Nat} (hm : m < 256 ^ w) (hn : n < 256 ^ w)
    (h : ofNatLE w m = ofNatLE w n) : m = n := by
  rw [← toNatLE_ofNatLE w m hm, h, toNatLE_ofNatLE w n hn]

theorem toNatLE_injective {xs ys : Bytes} (hlen : xs.length = ys.length)
    (h : toNatLE xs = toNatLE ys) : xs = ys := by
  rw [← ofNatLE_toNatLE xs, ← ofNatLE_toNatLE ys, hlen, h]

/-! ### Text -/

/-- `str::as_bytes`. -/
def ofString (s : String) : Bytes := s.toByteArray.data.toList

/-- `str::from_utf8`. -/
def toString? (bs : Bytes) : Option String :=
  String.fromUTF8? ⟨bs.toArray⟩

@[simp] theorem toString?_ofString (s : String) : toString? (ofString s) = some s := by
  have hvalid : s.toByteArray.IsValidUTF8 := s.isValidUTF8
  simp [toString?, ofString, String.fromUTF8?, String.fromUTF8, hvalid]

theorem ofString_of_toString? {bs : Bytes} {s : String} (h : toString? bs = some s) :
    ofString s = bs := by
  unfold toString? String.fromUTF8? at h
  split at h
  · simp only [Option.some.injEq] at h
    subst h
    simp [ofString, String.fromUTF8]
  · simp at h

/-- `{:x}` of a number. -/
def formatHex (n : Nat) : String := String.ofList (Nat.toDigits 16 n)

theorem digitChar_injective {a b : Nat} (ha : a < 16) (hb : b < 16)
    (h : a.digitChar = b.digitChar) : a = b := by
  have hall : ∀ a b : Fin 16, a.val.digitChar = b.val.digitChar → a = b := by decide
  exact Fin.mk.inj (hall ⟨a, ha⟩ ⟨b, hb⟩ h)

/-- Different numbers have different digits: induction on the number, from the last digit. -/
theorem formatHex_injective {n m : Nat} (h : formatHex n = formatHex m) : n = m := by
  have hdigits : Nat.toDigits 16 n = Nat.toDigits 16 m := String.ofList_injective h
  clear h
  induction n using Nat.strongRecOn generalizing m with
  | ind n ih =>
      rcases Nat.lt_or_ge n 16 with hn | hn <;> rcases Nat.lt_or_ge m 16 with hm | hm
      · rw [Nat.toDigits_of_lt_base hn, Nat.toDigits_of_lt_base hm] at hdigits
        exact digitChar_injective hn hm (List.cons.inj hdigits).1
      · rw [Nat.toDigits_of_lt_base hn, Nat.toDigits_of_base_le (by decide) hm,
          List.singleton_eq_append_iff] at hdigits
        simp [Nat.toDigits_ne_nil] at hdigits
      · rw [Nat.toDigits_of_lt_base hm, Nat.toDigits_of_base_le (by decide) hn,
          List.append_eq_singleton_iff] at hdigits
        simp [Nat.toDigits_ne_nil] at hdigits
      · rw [Nat.toDigits_of_base_le (by decide) hn, Nat.toDigits_of_base_le (by decide) hm]
          at hdigits
        obtain ⟨hquot, hrem⟩ := List.append_inj' hdigits rfl
        have hquot := ih (n / 16) (by omega) hquot
        have hrem := digitChar_injective (Nat.mod_lt n (by decide)) (Nat.mod_lt m (by decide))
          (List.cons.inj hrem).1
        omega

/-- `{:?}` and `{:x?}` of a byte array, by the format of one byte. -/
def formatList (format : Nat → String) (bs : Bytes) : String :=
  "[" ++ String.intercalate ", " (bs.map fun b => format b.toNat) ++ "]"

/-- One hexadecimal digit. -/
def hexDigit (n : Nat) : Char := "0123456789abcdef".toList.getD n '0'

/-- `hex::encode`. -/
def hexEncode (bs : Bytes) : String :=
  String.ofList (bs.flatMap fun b => [hexDigit (b.toNat / 16), hexDigit (b.toNat % 16)])

/-! ### Zeros at the end -/

/-- A byte string without the zeros at its end. -/
def trimZeros (bs : Bytes) : Bytes := bs.rdropWhile (· = 0)

theorem trimZeros_append_zeros (bs : Bytes) (k : Nat) :
    trimZeros (bs ++ List.replicate k 0) = trimZeros bs := by
  induction k with
  | zero => simp
  | succ k ih =>
      rw [List.replicate_succ', ← List.append_assoc]
      unfold trimZeros
      rw [List.rdropWhile_concat_pos _ _ _ (by simp)]
      exact ih

theorem trimZeros_append (bs : Bytes) :
    trimZeros bs ++ List.replicate (bs.length - (trimZeros bs).length) 0 = bs := by
  have hsplit : trimZeros bs ++ bs.rtakeWhile (· = 0) = bs := List.rdropWhile_append_rtakeWhile
  have hzeros : bs.rtakeWhile (· = 0)
      = List.replicate (bs.length - (trimZeros bs).length) 0 := by
    refine List.eq_replicate_iff.mpr ⟨?_, ?_⟩
    · have hlen := congrArg List.length hsplit
      rw [List.length_append] at hlen
      omega
    · intro b hb
      simpa using List.mem_rtakeWhile_imp hb
  rw [← hzeros, hsplit]

end Bytes

/-- A byte string of exactly `n` bytes: Rust's `[u8; n]`. -/
@[ext] structure Block (n : Nat) where
  bytes : Bytes
  length_eq : bytes.length = n
deriving DecidableEq

namespace Block

attribute [simp] Block.length_eq

/-- `<[u8; n]>::try_from` on a slice. -/
def ofBytes? (n : Nat) (bs : Bytes) : Option (Block n) :=
  if h : bs.length = n then some ⟨bs, h⟩ else none

@[simp] theorem ofBytes?_bytes {n : Nat} (b : Block n) : ofBytes? n b.bytes = some b := by
  simp [ofBytes?]

/-- `[0; n]`. -/
def zero (n : Nat) : Block n := ⟨List.replicate n 0, by simp⟩

/-- `[0; n]` with its front overwritten by `copy_from_slice`. -/
def padded {n : Nat} (bs : Bytes) (h : bs.length ≤ n) : Block n :=
  ⟨bs ++ List.replicate (n - bs.length) 0, by simp; omega⟩

/-- **Padding forgets the zeros at the end, and nothing else.** -/
theorem padded_eq_iff {n : Nat} {xs ys : Bytes} (hx : xs.length ≤ n) (hy : ys.length ≤ n) :
    padded xs hx = padded ys hy ↔ Bytes.trimZeros xs = Bytes.trimZeros ys := by
  have hpadded : ∀ {bs : Bytes} (h : bs.length ≤ n), (padded bs h).bytes
      = Bytes.trimZeros bs ++ List.replicate (n - (Bytes.trimZeros bs).length) 0 := by
    intro bs h
    have hle : (Bytes.trimZeros bs).length ≤ bs.length := (List.rdropWhile_prefix _ bs).length_le
    have hzeros : n - (Bytes.trimZeros bs).length
        = (bs.length - (Bytes.trimZeros bs).length) + (n - bs.length) := by omega
    rw [hzeros, List.replicate_add, ← List.append_assoc, Bytes.trimZeros_append]
    rfl
  refine ⟨?_, ?_⟩
  · intro h
    have hbytes := congrArg (fun b : Block n => Bytes.trimZeros b.bytes) h
    simpa only [padded, Bytes.trimZeros_append_zeros] using hbytes
  · intro h
    apply Block.ext
    rw [hpadded hx, hpadded hy, h]

/-- `n` consecutive bytes of a long enough string. -/
def slice (bs : Bytes) (start n : Nat) (h : start + n ≤ bs.length) : Block n :=
  ⟨(bs.drop start).take n, by simp; omega⟩

/-- The number a block spells, least significant byte first. -/
def toNat {n : Nat} (b : Block n) : Nat := Bytes.toNatLE b.bytes

theorem toNat_lt {n : Nat} (b : Block n) : b.toNat < 256 ^ n := by
  have h := Bytes.toNatLE_lt b.bytes
  rwa [b.length_eq] at h

theorem toNat_injective {n : Nat} {a b : Block n} (h : a.toNat = b.toNat) : a = b :=
  Block.ext (Bytes.toNatLE_injective (by simp) h)

end Block

/-! ### `u32` and `u64` as bytes -/

namespace Bytes

/-- `u32::to_le_bytes`. -/
def u32ToLE (n : UInt32) : Block 4 := ⟨ofNatLE 4 n.toNat, by simp⟩

/-- `u32::from_le_bytes`. -/
def u32OfLE (b : Block 4) : UInt32 := UInt32.ofNat b.toNat

@[simp] theorem u32OfLE_toLE (n : UInt32) : u32OfLE (u32ToLE n) = n := by
  have hn : n.toNat < 256 ^ 4 := n.toNat_lt
  simp [u32OfLE, u32ToLE, Block.toNat, toNatLE_ofNatLE 4 n.toNat hn]

@[simp] theorem u32ToLE_ofLE (b : Block 4) : u32ToLE (u32OfLE b) = b := by
  have hb : b.toNat < 2 ^ 32 := b.toNat_lt
  apply Block.ext
  show ofNatLE 4 (UInt32.ofNat b.toNat).toNat = b.bytes
  rw [UInt32.toNat_ofNat', Nat.mod_eq_of_lt hb]
  have hspell := ofNatLE_toNatLE b.bytes
  rwa [b.length_eq] at hspell

/-- `u64::to_le_bytes`. -/
def u64ToLE (n : UInt64) : Block 8 := ⟨ofNatLE 8 n.toNat, by simp⟩

/-- `u64::to_be_bytes`. -/
def u64ToBE (n : UInt64) : Block 8 := ⟨ofNatBE 8 n.toNat, by simp⟩

/-- `u64::from_le_bytes`. -/
def u64OfLE (b : Block 8) : UInt64 := UInt64.ofNat b.toNat

@[simp] theorem u64OfLE_toLE (n : UInt64) : u64OfLE (u64ToLE n) = n := by
  have hn : n.toNat < 256 ^ 8 := n.toNat_lt
  simp [u64OfLE, u64ToLE, Block.toNat, toNatLE_ofNatLE 8 n.toNat hn]

@[simp] theorem u64ToLE_ofLE (b : Block 8) : u64ToLE (u64OfLE b) = b := by
  have hb : b.toNat < 2 ^ 64 := b.toNat_lt
  apply Block.ext
  show ofNatLE 8 (UInt64.ofNat b.toNat).toNat = b.bytes
  rw [UInt64.toNat_ofNat', Nat.mod_eq_of_lt hb]
  have hspell := ofNatLE_toNatLE b.bytes
  rwa [b.length_eq] at hspell

theorem u64ToLE_injective {m n : UInt64} (h : u64ToLE m = u64ToLE n) : m = n := by
  rw [← u64OfLE_toLE m, h, u64OfLE_toLE]

theorem u64ToBE_injective {m n : UInt64} (h : u64ToBE m = u64ToBE n) : m = n := by
  apply u64ToLE_injective
  apply Block.ext
  have hrev := congrArg (fun b : Block 8 => b.bytes.reverse) h
  simpa [u64ToBE, u64ToLE, ofNatBE] using hrev

end Bytes

/-! ### Serialised formats -/

/-- A format for `α`: what is written, and what reading makes of any byte string. -/
structure Codec (α : Type) where
  encode : α → Bytes
  decode : Bytes → Option α

/-- What was written is read back. -/
def Codec.RoundTrip {α : Type} (c : Codec α) : Prop := ∀ a, c.decode (c.encode a) = some a
