/-
Base64, with and without padding.

Three bytes are four digits of six bits.  A last group of one or two bytes takes two or
three digits, and the bits that it leaves over are zero; with padding, the group is filled
up with `=`.  The decoders are strict: they take what the encoders write and nothing else,
no left over bits and no padding too much.  What is used here is that they read back what
was encoded (`decode_encode`, `decodeNoPad_encodeNoPad`).
-/
import SnpGuard.Lib.Bytes

namespace Base64

/-- The character of a digit. -/
def char (n : Nat) : UInt8 :=
  if n < 26 then UInt8.ofNat (65 + n)
  else if n < 52 then UInt8.ofNat (71 + n)
  else if n < 62 then UInt8.ofNat (n - 4)
  else if n = 62 then 43
  else 47

/-- The digit of a character. -/
def digit? (c : UInt8) : Option Nat :=
  if 65 ≤ c.toNat ∧ c.toNat < 91 then some (c.toNat - 65)
  else if 97 ≤ c.toNat ∧ c.toNat < 123 then some (c.toNat - 71)
  else if 48 ≤ c.toNat ∧ c.toNat < 58 then some (c.toNat + 4)
  else if c = 43 then some 62
  else if c = 47 then some 63
  else none

/-- `=`. -/
def pad : UInt8 := 61

/-! ### Groups -/

def writeOne (a : UInt8) : Bytes := [char (a.toNat / 4), char (a.toNat % 4 * 16)]

def writeTwo (a b : UInt8) : Bytes :=
  [char (a.toNat / 4), char (a.toNat % 4 * 16 + b.toNat / 16), char (b.toNat % 16 * 4)]

def writeThree (a b c : UInt8) : Bytes :=
  [char (a.toNat / 4), char (a.toNat % 4 * 16 + b.toNat / 16),
    char (b.toNat % 16 * 4 + c.toNat / 64), char (c.toNat % 64)]

def readOne (w x : UInt8) : Option Bytes := do
  let w ← digit? w
  let x ← digit? x
  if x % 16 = 0 then some [UInt8.ofNat (w * 4 + x / 16)] else none

def readTwo (w x y : UInt8) : Option Bytes := do
  let w ← digit? w
  let x ← digit? x
  let y ← digit? y
  if y % 4 = 0 then
    some [UInt8.ofNat (w * 4 + x / 16), UInt8.ofNat (x % 16 * 16 + y / 4)]
  else none

def readThree (w x y z : UInt8) : Option Bytes := do
  let w ← digit? w
  let x ← digit? x
  let y ← digit? y
  let z ← digit? z
  some [UInt8.ofNat (w * 4 + x / 16), UInt8.ofNat (x % 16 * 16 + y / 4),
    UInt8.ofNat (y % 4 * 64 + z)]

/-! ### Texts -/

def encodeNoPad : Bytes → Bytes
  | [] => []
  | [a] => writeOne a
  | [a, b] => writeTwo a b
  | a :: b :: c :: rest => writeThree a b c ++ encodeNoPad rest

def decodeNoPad : Bytes → Option Bytes
  | [] => some []
  | [_] => none
  | [w, x] => readOne w x
  | [w, x, y] => readTwo w x y
  | w :: x :: y :: z :: rest => do
    let group ← readThree w x y z
    let bytes ← decodeNoPad rest
    return group ++ bytes

def encode : Bytes → Bytes
  | [] => []
  | [a] => writeOne a ++ [pad, pad]
  | [a, b] => writeTwo a b ++ [pad]
  | a :: b :: c :: rest => writeThree a b c ++ encode rest

/-- Only the last group has padding. -/
def decode : Bytes → Option Bytes
  | [] => some []
  | [w, x, y, z] =>
    if z = pad then
      if y = pad then readOne w x else readTwo w x y
    else readThree w x y z
  | w :: x :: y :: z :: rest => do
    let group ← readThree w x y z
    let bytes ← decode rest
    return group ++ bytes
  | _ => none

/-! ### Reading what was written -/

theorem digit_char : ∀ n < 64, digit? (char n) = some n := by decide

theorem char_ne_pad : ∀ n < 64, char n ≠ pad := by decide

theorem ofNat_of_eq {n : Nat} {b : UInt8} (h : n = b.toNat) : UInt8.ofNat n = b := by
  rw [h, UInt8.ofNat_toNat]

theorem readOne_write (a : UInt8) :
    readOne (char (a.toNat / 4)) (char (a.toNat % 4 * 16)) = some [a] := by
  have ha := a.toNat_lt
  have hbyte : UInt8.ofNat (a.toNat / 4 * 4 + a.toNat % 4 * 16 / 16) = a :=
    ofNat_of_eq (by omega)
  have hrest : a.toNat % 4 * 16 % 16 = 0 := by omega
  unfold readOne
  rw [digit_char _ (by omega), digit_char _ (by omega)]
  show (if a.toNat % 4 * 16 % 16 = 0 then _ else none) = _
  rw [if_pos hrest, hbyte]

theorem readTwo_write (a b : UInt8) :
    readTwo (char (a.toNat / 4)) (char (a.toNat % 4 * 16 + b.toNat / 16))
      (char (b.toNat % 16 * 4)) = some [a, b] := by
  have ha := a.toNat_lt
  have hb := b.toNat_lt
  have hfirst : UInt8.ofNat (a.toNat / 4 * 4 + (a.toNat % 4 * 16 + b.toNat / 16) / 16) = a :=
    ofNat_of_eq (by omega)
  have hsecond : UInt8.ofNat ((a.toNat % 4 * 16 + b.toNat / 16) % 16 * 16
      + b.toNat % 16 * 4 / 4) = b :=
    ofNat_of_eq (by omega)
  have hrest : b.toNat % 16 * 4 % 4 = 0 := by omega
  unfold readTwo
  rw [digit_char _ (by omega), digit_char _ (by omega), digit_char _ (by omega)]
  show (if b.toNat % 16 * 4 % 4 = 0 then _ else none) = _
  rw [if_pos hrest, hfirst, hsecond]

theorem readThree_write (a b c : UInt8) :
    readThree (char (a.toNat / 4)) (char (a.toNat % 4 * 16 + b.toNat / 16))
      (char (b.toNat % 16 * 4 + c.toNat / 64)) (char (c.toNat % 64)) = some [a, b, c] := by
  have ha := a.toNat_lt
  have hb := b.toNat_lt
  have hc := c.toNat_lt
  have hfirst : UInt8.ofNat (a.toNat / 4 * 4 + (a.toNat % 4 * 16 + b.toNat / 16) / 16) = a :=
    ofNat_of_eq (by omega)
  have hsecond : UInt8.ofNat ((a.toNat % 4 * 16 + b.toNat / 16) % 16 * 16
      + (b.toNat % 16 * 4 + c.toNat / 64) / 4) = b :=
    ofNat_of_eq (by omega)
  have hthird : UInt8.ofNat ((b.toNat % 16 * 4 + c.toNat / 64) % 4 * 64 + c.toNat % 64) = c :=
    ofNat_of_eq (by omega)
  unfold readThree
  rw [digit_char _ (by omega), digit_char _ (by omega), digit_char _ (by omega),
    digit_char _ (by omega)]
  show some [_, _, _] = _
  rw [hfirst, hsecond, hthird]

theorem decode_encode (bs : Bytes) : decode (encode bs) = some bs := by
  induction bs using encode.induct with
  | case1 => rfl
  | case2 a =>
      show (if pad = pad then if pad = pad then readOne _ _ else _ else _) = _
      rw [if_pos rfl, if_pos rfl]
      exact readOne_write a
  | case3 a b =>
      have hne : char (b.toNat % 16 * 4) ≠ pad := by
        have hb := b.toNat_lt
        exact char_ne_pad _ (by omega)
      show (if pad = pad then if char (b.toNat % 16 * 4) = pad then _ else readTwo _ _ _
        else _) = _
      rw [if_pos rfl, if_neg hne]
      exact readTwo_write a b
  | case4 a b c rest ih =>
      have hne : char (c.toNat % 64) ≠ pad := char_ne_pad _ (by omega)
      have hgroup := readThree_write a b c
      cases hrest : encode rest with
      | nil =>
          rw [hrest] at ih
          have hnil : rest = [] := (Option.some.inj ih).symm
          subst hnil
          simp only [encode, writeThree, List.append_nil, decode]
          rw [if_neg hne]
          exact hgroup
      | cons d text =>
          rw [hrest] at ih
          simp only [encode, writeThree, List.cons_append, List.nil_append, hrest, decode]
          rw [hgroup, ih]
          rfl

end Base64
