/-
Decimal numbers as text, and rounding.

`roundDiv` rounds a quotient to the nearest whole number, a tie to the even one, and
`le_roundDiv_mul_iff` says when the rounded quotient is not below the exact one.  `general`
is what `printf` makes of a quotient with three significant digits: zeros at the end of the
fraction are not printed, and a number that comes out with four digits is printed with an
exponent.  Reading such a text gives the rounded number (`read?_general`), however much of
it was left out.
-/
import Mathlib.Algebra.Order.Floor.Semifield
import Mathlib.Data.List.DropRight
import Mathlib.Data.Rat.Floor

/-- `mantissa / 10 ^ places`. -/
structure Decimal where
  mantissa : Nat
  places : Nat
deriving DecidableEq

namespace Decimal

/-! ### Rounding -/

/-- The quotient, rounded to the nearest whole number, and from halfway to the even one. -/
def roundDiv (a b : Nat) : Nat :=
  if 2 * (a % b) < b ∨ 2 * (a % b) = b ∧ a / b % 2 = 0 then a / b else a / b + 1

/-- The next multiple of `s` from `n` on. -/
def roundUp (s n : Nat) : Nat := (n + (s - 1)) / s * s

section Rounding

variable {a b : Nat}

/-- **The rounded quotient is below the exact one exactly if it was rounded down.** -/
theorem le_roundDiv_mul_iff (hb : 0 < b) :
    a ≤ roundDiv a b * b ↔
      a % b = 0 ∨ b < 2 * (a % b) ∨ 2 * (a % b) = b ∧ a / b % 2 = 1 := by
  have hdiv : a / b * b + a % b = a := Nat.div_add_mod' a b
  have hlt := Nat.mod_lt a hb
  have hparity := Nat.mod_two_eq_zero_or_one (a / b)
  unfold roundDiv
  split_ifs with h
  · omega
  · rw [Nat.add_mul]
    omega

/-- Where it was, it is the whole part of the quotient. -/
theorem roundDiv_of_lt (hb : 0 < b) (h : roundDiv a b * b < a) : roundDiv a b = a / b := by
  have hdiv : a / b * b + a % b = a := Nat.div_add_mod' a b
  have hlt := Nat.mod_lt a hb
  unfold roundDiv at h ⊢
  split_ifs at h ⊢ with hdown
  · rfl
  · rw [Nat.add_mul] at h
    omega

/-- Rounding moves a quotient by half a unit at most. -/
theorem roundDiv_mul_near (hb : 0 < b) :
    2 * (roundDiv a b * b) ≤ 2 * a + b ∧ 2 * a ≤ 2 * (roundDiv a b * b) + b := by
  have hdiv : a / b * b + a % b = a := Nat.div_add_mod' a b
  have hlt := Nat.mod_lt a hb
  unfold roundDiv
  split_ifs with h
  · omega
  · rw [Nat.add_mul]
    omega

/-- A multiple of `s` reaches `n` if it is beyond the last multiple below `n`. -/
theorem le_roundUp_iff {s m n : Nat} (hs : 0 < s) (hn : 0 < n) :
    n ≤ roundUp s m ↔ n ≤ m + (n - 1) % s := by
  have hdiv : (n - 1) / s * s + (n - 1) % s = n - 1 := Nat.div_add_mod' _ _
  have hlt := Nat.mod_lt (n - 1) hs
  have hquot : n ≤ roundUp s m ↔ (n - 1) / s + 1 ≤ (m + (s - 1)) / s := by
    unfold roundUp
    refine ⟨fun h => ?_, fun h => ?_⟩
    · rw [Nat.succ_le_iff]
      have hbelow : (n - 1) / s * s < (m + (s - 1)) / s * s := by omega
      exact Nat.lt_of_mul_lt_mul_right hbelow
    · have hmul := Nat.mul_le_mul_right s h
      rw [Nat.add_mul] at hmul
      omega
  rw [hquot, Nat.le_div_iff_mul_le hs, Nat.add_mul]
  omega

theorem roundUp_le (s m : Nat) : roundUp s m ≤ m + (s - 1) :=
  Nat.div_mul_le_self _ _

end Rounding

/-! ### Text -/

def value (d : Decimal) : ℚ := d.mantissa / 10 ^ d.places

/-- The last digits of a number. -/
def lastDigits : Nat → Nat → List Char
  | 0, _ => []
  | k + 1, n => lastDigits k (n / 10) ++ [Nat.digitChar (n % 10)]

/-- A number without a fraction has no point. -/
def withPoint (whole : List Char) : List Char → List Char
  | [] => whole
  | frac => whole ++ '.' :: frac

/-- A decimal number, without zeros at its end. -/
def text (d : Decimal) : List Char :=
  withPoint (Nat.toDigits 10 (d.mantissa / 10 ^ d.places))
    ((lastDigits d.places d.mantissa).rdropWhile (· == '0'))

/-- How many places `%.3g` prints of a quotient below 1000 and from a tenth on. -/
def shownPlaces (a b : Nat) : Nat :=
  if 100 * b ≤ a then 0 else if 10 * b ≤ a then 1 else if b ≤ a then 2 else 3

/-- The quotient, rounded to three significant digits. -/
def threeDigits (a b : Nat) : Decimal :=
  ⟨roundDiv (10 ^ shownPlaces a b * a) b, shownPlaces a b⟩

/-- `%.3g` of a quotient below 1000 that is nothing or a tenth at least. -/
def general (a b : Nat) : List Char :=
  let d := threeDigits a b
  if d = ⟨1000, 0⟩ then "1e+03".toList else d.text

/-- Digits, maybe with a point and more digits. -/
def readFixed? (t : List Char) : Option ℚ :=
  let whole := t.takeWhile (· != '.')
  let frac := (t.dropWhile (· != '.')).tail
  if (whole ++ frac).all Char.isDigit && !whole.isEmpty then
    some (value ⟨Nat.ofDigitChars 10 (whole ++ frac) 0, frac.length⟩)
  else none

/-- A number, maybe with an exponent. -/
def read? (t : List Char) : Option ℚ :=
  match t.dropWhile (· != 'e') with
  | [] => readFixed? t
  | 'e' :: '+' :: exponent =>
    if exponent.all Char.isDigit && !exponent.isEmpty then
      (readFixed? (t.takeWhile (· != 'e'))).map (· * 10 ^ Nat.ofDigitChars 10 exponent 0)
    else none
  | _ => none

example : general 21474836480 1073741824 = "20".toList ∧
    general 2362232013 1073741824 = "2.2".toList ∧
    general 1073200000000 1073741824 = "999".toList ∧
    general 1073500000000 1073741824 = "1e+03".toList ∧
    read? "2.20".toList = some (11 / 5) := by decide +kernel

/-! ### Reading a text back -/

theorem isDigit_of_mem_lastDigits {k n : Nat} {c : Char} (h : c ∈ lastDigits k n) :
    c.isDigit = true := by
  induction k generalizing n with
  | zero => simp [lastDigits] at h
  | succ k ih =>
      rw [lastDigits, List.mem_append, List.mem_singleton] at h
      rcases h with h | rfl
      · exact ih h
      · rw [Nat.isDigit_digitChar, decide_eq_true_eq]
        omega

/-- Behind the digits of another number, the last digits of a number make up one number. -/
theorem ofDigitChars_lastDigits (k n init : Nat) :
    Nat.ofDigitChars 10 (lastDigits k n) init = init * 10 ^ k + n % 10 ^ k := by
  induction k generalizing n with
  | zero => simp [lastDigits, Nat.mod_one]
  | succ k ih =>
      have hmod : n % 10 ^ (k + 1) = n / 10 % 10 ^ k * 10 + n % 10 := by
        rw [Nat.pow_succ', Nat.mod_mul]
        omega
      rw [lastDigits, Nat.ofDigitChars_append, ih, Nat.ofDigitChars_cons_digitChar_of_lt_ten
        (Nat.mod_lt _ (by decide)), Nat.ofDigitChars_nil, hmod, Nat.pow_succ]
      ring

theorem length_lastDigits (k n : Nat) : (lastDigits k n).length = k := by
  induction k generalizing n with
  | zero => rfl
  | succ k ih => rw [lastDigits, List.length_append, ih, List.length_singleton]

/-- Zeros at the end of a fraction do not count. -/
theorem value_append_zeros (whole frac : List Char) (z : Nat) :
    value ⟨Nat.ofDigitChars 10 (whole ++ (frac ++ List.replicate z '0')) 0, frac.length + z⟩
      = value ⟨Nat.ofDigitChars 10 (whole ++ frac) 0, frac.length⟩ := by
  unfold value
  rw [← List.append_assoc, Nat.ofDigitChars_append, Nat.ofDigitChars_replicate_zero]
  push_cast
  rw [pow_add, mul_comm ((10 : ℚ) ^ z)]
  exact mul_div_mul_right _ _ (by positivity)

theorem readFixed?_withPoint {whole frac : List Char} (hwhole : ∀ c ∈ whole, c.isDigit = true)
    (hfrac : ∀ c ∈ frac, c.isDigit = true) (hne : whole ≠ []) :
    readFixed? (withPoint whole frac)
      = some (value ⟨Nat.ofDigitChars 10 (whole ++ frac) 0, frac.length⟩) := by
  have hpoint : ∀ c ∈ whole, (c != '.') = true := by
    intro c hc
    rw [bne_iff_ne]
    rintro rfl
    exact absurd (hwhole _ hc) (by decide)
  have hsplit : (withPoint whole frac).takeWhile (· != '.') = whole ∧
      ((withPoint whole frac).dropWhile (· != '.')).tail = frac := by
    cases frac with
    | nil =>
        have htake : whole.takeWhile (· != '.') = whole := List.takeWhile_eq_self_iff.mpr hpoint
        have hdrop : whole.dropWhile (· != '.') = [] := List.dropWhile_eq_nil_iff.mpr hpoint
        simp [withPoint, htake, hdrop]
    | cons c frac =>
        simp [withPoint, List.takeWhile_append_of_pos hpoint, List.dropWhile_append_of_pos hpoint]
  have hall : (whole ++ frac).all Char.isDigit = true := by
    rw [List.all_eq_true]
    intro c hc
    exact (List.mem_append.mp hc).elim (hwhole c) (hfrac c)
  have hempty : whole.isEmpty = false := by simpa using hne
  unfold readFixed?
  rw [hsplit.1, hsplit.2]
  simp only [hall, hempty, Bool.not_false, Bool.and_self, if_true]

/-- The characters of a number. -/
def isNumeral (c : Char) : Bool := c.isDigit || c == '.'

theorem isNumeral_of_mem_text {d : Decimal} {c : Char} (h : c ∈ d.text) : isNumeral c = true := by
  have hdigit : c.isDigit = true ∨ c = '.' := by
    unfold text at h
    cases hfrac : (lastDigits d.places d.mantissa).rdropWhile (· == '0') with
    | nil =>
        rw [hfrac] at h
        exact .inl (Nat.isDigit_of_mem_toDigits (by decide) (by decide) h)
    | cons c' frac =>
        have hdrop : ∀ x ∈ c' :: frac, x.isDigit = true := by
          intro x hx
          rw [← hfrac] at hx
          exact isDigit_of_mem_lastDigits ((List.rdropWhile_prefix (p := (· == '0')) _).subset hx)
        rw [hfrac] at h
        rcases List.mem_append.mp h with h | h
        · exact .inl (Nat.isDigit_of_mem_toDigits (by decide) (by decide) h)
        · exact (List.mem_cons.mp h).symm.imp (hdrop c) id
  unfold isNumeral
  rcases hdigit with hdigit | rfl
  · rw [hdigit, Bool.true_or]
  · rfl

theorem readFixed?_text (d : Decimal) : readFixed? d.text = some d.value := by
  obtain ⟨m, p⟩ := d
  have hwhole : ∀ c ∈ Nat.toDigits 10 (m / 10 ^ p), c.isDigit = true :=
    fun c hc => Nat.isDigit_of_mem_toDigits (by decide) (by decide) hc
  -- What is not printed of the fraction are zeros.
  obtain ⟨z, hz⟩ : ∃ z, lastDigits p m
      = (lastDigits p m).rdropWhile (· == '0') ++ List.replicate z '0' := by
    refine ⟨((lastDigits p m).rtakeWhile (· == '0')).length, ?_⟩
    have hzeros : (lastDigits p m).rtakeWhile (· == '0')
        = List.replicate ((lastDigits p m).rtakeWhile (· == '0')).length '0' := by
      rw [List.eq_replicate_iff]
      refine ⟨rfl, fun c hc => ?_⟩
      simpa using List.mem_rtakeWhile_imp hc
    rw [← hzeros]
    exact List.rdropWhile_append_rtakeWhile.symm
  unfold text
  generalize (lastDigits p m).rdropWhile (· == '0') = frac at hz ⊢
  have hfrac : ∀ c ∈ frac, c.isDigit = true := by
    intro c hc
    exact isDigit_of_mem_lastDigits (k := p) (n := m) (hz ▸ List.mem_append_left _ hc)
  have hlength : frac.length + z = p := by
    have h := congrArg List.length hz
    rw [length_lastDigits, List.length_append, List.length_replicate] at h
    exact h.symm
  rw [readFixed?_withPoint hwhole hfrac Nat.toDigits_ne_nil, ← value_append_zeros _ _ z, ← hz,
    Nat.ofDigitChars_append, Nat.ofDigitChars_ten_toDigits, ofDigitChars_lastDigits,
    Nat.div_add_mod', hlength]

theorem read?_of_no_exponent {t : List Char} (h : ∀ c ∈ t, isNumeral c = true) :
    read? t = readFixed? t := by
  have hdrop : t.dropWhile (· != 'e') = [] := by
    rw [List.dropWhile_eq_nil_iff]
    intro c hc
    rw [bne_iff_ne]
    rintro rfl
    exact absurd (h _ hc) (by decide)
  unfold read?
  rw [hdrop]

/-- **Reading what was printed gives the rounded number.** -/
theorem read?_general (a b : Nat) : read? (general a b) = some (threeDigits a b).value := by
  by_cases h : threeDigits a b = ⟨1000, 0⟩
  · rw [general, if_pos h, h]
    decide +kernel
  · rw [general, if_neg h, read?_of_no_exponent fun c hc => isNumeral_of_mem_text hc,
      readFixed?_text]

theorem general_ne_nil (a b : Nat) : general a b ≠ [] := by
  intro h
  have hread := read?_general a b
  rw [h] at hread
  exact absurd hread (by simp [read?, readFixed?])

theorem isNumeral_of_mem_general {a b : Nat} {c : Char} (h : c ∈ general a b) :
    isNumeral c = true ∨ c = 'e' ∨ c = '+' := by
  by_cases hd : threeDigits a b = ⟨1000, 0⟩
  · rw [general, if_pos hd] at h
    have hall : "1e+03".toList.all (fun c => isNumeral c || c == 'e' || c == '+') = true := by
      decide
    simpa [or_assoc] using List.all_eq_true.mp hall c h
  · rw [general, if_neg hd] at h
    exact .inl (isNumeral_of_mem_text h)

/-- Of a multiple, the whole part. -/
theorem floor_value_mul (d : Decimal) (k : Nat) :
    ⌊d.value * k⌋₊ = d.mantissa * k / 10 ^ d.places := by
  have hcast : d.value * k = ((d.mantissa * k : Nat) : ℚ) / ((10 ^ d.places : Nat) : ℚ) := by
    unfold value
    push_cast
    exact div_mul_eq_mul_div _ _ _
  rw [hcast, Nat.floor_div_eq_div]

end Decimal
