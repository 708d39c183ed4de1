/-
Binary formats built from smaller ones.

A `Format` writes a value and reads one from the front of a byte string, and
carries the two laws that make it usable: reading undoes writing whatever follows,
and nothing but what is written is read.  Formats of blocks, integers and byte
strings are put together with `pair` and `iso`, so a record gets its format and
its laws from those of its fields.
-/
import Mathlib.Logic.Equiv.Prod
import SnpGuard.Lib.Bytes

/-- A self-delimiting format for `α`. -/
structure Format (α : Type) where
  write : α → Bytes
  read : Bytes → Option (α × Bytes)
  read_write : ∀ a rest, read (write a ++ rest) = some (a, rest)
  write_read : ∀ {bs a rest}, read bs = some (a, rest) → bs = write a ++ rest

namespace Format

variable {α β : Type}

/-- What follows a written value can be found again. -/
theorem write_append_injective (f : Format α) {a b : α} {xs ys : Bytes}
    (h : f.write a ++ xs = f.write b ++ ys) : a = b ∧ xs = ys := by
  have hread := f.read_write a xs
  rw [h, f.read_write b ys] at hread
  simp only [Option.some.injEq, Prod.mk.injEq] at hread
  exact ⟨hread.1.symm, hread.2.symm⟩

/-! ### Formats of single values -/

/-- A block as its bytes. -/
def block (n : Nat) : Format (Block n) where
  write b := b.bytes
  read bs := (Block.ofBytes? n (bs.take n)).map fun b => (b, bs.drop n)
  read_write b rest := by
    rw [List.take_left' b.length_eq, List.drop_left' b.length_eq, Block.ofBytes?_bytes]
    rfl
  write_read {bs b rest} h := by
    simp only [Block.ofBytes?, Option.map_eq_some_iff, Prod.mk.injEq] at h
    obtain ⟨c, hc, rfl, rfl⟩ := h
    split at hc
    · simp only [Option.some.injEq] at hc
      subst hc
      exact (List.take_append_drop n bs).symm
    · simp at hc

/-- A byte. -/
def byte : Format UInt8 where
  write b := [b]
  read
    | [] => none
    | b :: rest => some (b, rest)
  read_write b rest := rfl
  write_read {bs b rest} h := by
    cases bs with
    | nil => simp at h
    | cons c bs =>
        simp only [Option.some.injEq, Prod.mk.injEq] at h
        obtain ⟨rfl, rfl⟩ := h
        rfl

/-- A mark in front of each byte, and an end mark. -/
def writeMarked : Bytes → Bytes
  | [] => [0]
  | b :: bs => 1 :: b :: writeMarked bs

def readMarked : Bytes → Option (Bytes × Bytes)
  | 0 :: rest => some ([], rest)
  | 1 :: b :: rest => (readMarked rest).map fun r => (b :: r.1, r.2)
  | _ => none

theorem readMarked_write (bs rest : Bytes) :
    readMarked (writeMarked bs ++ rest) = some (bs, rest) := by
  induction bs with
  | nil => rfl
  | cons b bs ih => simp [writeMarked, readMarked, ih]

theorem eq_write_of_readMarked {input bs rest : Bytes}
    (h : readMarked input = some (bs, rest)) : input = writeMarked bs ++ rest := by
  induction input using readMarked.induct generalizing bs rest with
  | case1 rest' =>
      simp only [readMarked, Option.some.injEq, Prod.mk.injEq] at h
      obtain ⟨rfl, rfl⟩ := h
      rfl
  | case2 b rest' ih =>
      simp only [readMarked, Option.map_eq_some_iff, Prod.mk.injEq] at h
      obtain ⟨⟨r, rest''⟩, hr, rfl, rfl⟩ := h
      rw [ih hr]
      rfl
  | case3 input h0 h1 => simp [readMarked] at h

/-- A byte string that tells where it ends. -/
def bytes : Format Bytes where
  write := writeMarked
  read := readMarked
  read_write := readMarked_write
  write_read := eq_write_of_readMarked

/-! ### Formats of records -/

/-- One value after the other. -/
def pair (f : Format α) (g : Format β) : Format (α × β) where
  write p := f.write p.1 ++ g.write p.2
  read bs := (f.read bs).bind fun r => (g.read r.2).map fun r' => ((r.1, r'.1), r'.2)
  read_write p rest := by
    rw [List.append_assoc, f.read_write]
    simp [g.read_write]
  write_read {bs p rest} h := by
    simp only [Option.bind_eq_some_iff, Option.map_eq_some_iff] at h
    obtain ⟨⟨a, mid⟩, hf, ⟨b, rest'⟩, hg, heq⟩ := h
    simp only [Prod.mk.injEq] at heq
    obtain ⟨rfl, rfl⟩ := heq
    have hmid : mid = g.write b ++ rest' := g.write_read hg
    rw [f.write_read hf, hmid, List.append_assoc]

/-- The format of a type with the same values. -/
def iso (f : Format α) (e : α ≃ β) : Format β where
  write b := f.write (e.symm b)
  read bs := (f.read bs).map fun r => (e r.1, r.2)
  read_write b rest := by simp [f.read_write]
  write_read {bs b rest} h := by
    simp only [Option.map_eq_some_iff, Prod.mk.injEq] at h
    obtain ⟨⟨a, rest'⟩, hf, rfl, rfl⟩ := h
    simpa using f.write_read hf

/-- A `u32`, least significant byte first. -/
def u32 : Format UInt32 :=
  (block 4).iso ⟨Bytes.u32OfLE, Bytes.u32ToLE, Bytes.u32ToLE_ofLE, Bytes.u32OfLE_toLE⟩

/-- A `u64`, least significant byte first. -/
def u64 : Format UInt64 :=
  (block 8).iso ⟨Bytes.u64OfLE, Bytes.u64ToLE, Bytes.u64ToLE_ofLE, Bytes.u64OfLE_toLE⟩

/-! ### Whole messages -/

/-- A message is one value and nothing after it. -/
def codec (f : Format α) : Codec α where
  encode := f.write
  decode bs :=
    match f.read bs with
    | some (a, []) => some a
    | _ => none

theorem codec_roundTrip (f : Format α) : f.codec.RoundTrip := by
  intro a
  have h := f.read_write a []
  rw [List.append_nil] at h
  simp only [codec, h]

theorem codec_canonical (f : Format α) {bs : Bytes} {a : α} (h : f.codec.decode bs = some a) :
    f.codec.encode a = bs := by
  simp only [codec] at h
  split at h
  · rename_i b hread
    simp only [Option.some.injEq] at h
    subst h
    have hbs := f.write_read hread
    rw [List.append_nil] at hbs
    exact hbs.symm
  · simp at h

/-- A byte string no value is written as is no message. -/
theorem codec_decode_eq_none (f : Format α) {bs : Bytes} (h : ∀ a, f.write a ≠ bs) :
    f.codec.decode bs = none := by
  cases hd : f.codec.decode bs with
  | none => rfl
  | some a => exact absurd (f.codec_canonical hd) (h a)

end Format
